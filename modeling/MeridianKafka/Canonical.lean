import MeridianKafka.Errors
import MeridianKafka.Framework.Json
import MeridianKafka.Framework.Utf8
import Mathlib.Data.List.Perm.Basic

/-!
# Canonical JSON and hashes

The helpers that the adapter shares: bounded strings, portable and canonical JSON, closed
objects and SHA-256 fingerprints. `Value` is what settings and operation inputs are made of.

`json.dumps`, `json.loads` and `hashlib.sha256` are parameters. What the adapter relies on
is that `json.loads` gives a value back that `json.dumps` has written, with the keys of
every object in order (`JsonModule.Inverts`). `plainJson` is a JSON module that does so; it
refuses floating-point numbers.
-/

namespace MeridianKafka

open Framework

/-- `bounded_string`: a text of bounded size without control characters. -/
def boundedString (value : String) (maximum : ℕ := 512) : Bool :=
  value ≠ "" && value.utf8ByteSize ≤ maximum &&
    value.toList.all fun c => 32 ≤ c.toNat && c.toNat ≠ 127

/-- `str.encode("ascii")`. -/
def ascii (text : String) : Option (List UInt8) :=
  if text.toList.all fun c => c.toNat < 128 then
    some (text.toList.map fun c => UInt8.ofNat c.toNat)
  else none

/-- `str.encode("utf-8")`. -/
def utf8 (text : String) : List UInt8 := text.toUTF8.data.toList

theorem utf8_eq_encode (text : String) : utf8 text = Utf8.encode text.toList := by
  rw [Utf8.encode, String.ofList_toList]
  rfl

theorem utf8_injective : Function.Injective utf8 := by
  intro text text' h
  have hdecode := congrArg Utf8.decode h
  rw [utf8_eq_encode, utf8_eq_encode, Utf8.decode_encode, Utf8.decode_encode] at hdecode
  exact String.toList_injective (Option.some.inj hdecode)

/-! ### Portable JSON -/

/-- `math.isfinite`, on the 64 bits of a number: not every bit of the exponent is set. -/
def isFinite (bits : UInt64) : Bool := (bits >>> 52) &&& 0x7ff ≠ 0x7ff

mutual

/-- `json_value` returns a copy of the value: every number is finite and every key a
bounded string. -/
def portable : Json → Bool
  | .float bits => isFinite bits
  | .arr items => portableItems items
  | .obj fields => portableFields fields
  | .null => true
  | .bool _ => true
  | .int _ => true
  | .str _ => true

def portableItems : List Json → Bool
  | [] => true
  | item :: items => portable item && portableItems items

def portableFields : List (String × Json) → Bool
  | [] => true
  | (key, value) :: fields => boundedString key && portable value && portableFields fields

end

theorem portableFields_eq (fields : List (String × Json)) :
    portableFields fields = fields.all fun f => boundedString f.1 && portable f.2 := by
  induction fields with
  | nil => rfl
  | cons field fields ih => rw [portableFields, ih, List.all_cons]

/-- The JSON module of the standard library. `dumps` sorts the keys, writes no blanks and
keeps every character; its bytes are UTF-8. -/
structure JsonModule where
  dumps : Json → Except Raised (List UInt8)
  /-- The value of a text, unless it is not JSON. -/
  loads : List UInt8 → Option Json

/-- `loads` inverts `dumps`: what was written is read back, with the keys in order. The
empty text is not JSON. -/
structure JsonModule.Inverts (json : JsonModule) : Prop where
  loads_dumps : ∀ value bytes, json.dumps value = .ok bytes → json.loads bytes = some value.sorted
  loads_nil : json.loads [] = none

/-- `canonical_json_bytes`. -/
def JsonModule.canonicalJsonBytes (json : JsonModule) (value : Json) :
    Except Raised (List UInt8) :=
  if portable value then json.dumps value else .error .other

theorem JsonModule.Inverts.loads_canonicalJsonBytes {json : JsonModule} (inverts : json.Inverts)
    {value : Json} {bytes : List UInt8} (h : json.canonicalJsonBytes value = .ok bytes) :
    json.loads bytes = some value.sorted := by
  unfold JsonModule.canonicalJsonBytes at h
  split at h
  · exact inverts.loads_dumps value bytes h
  · simp at h

theorem JsonModule.Inverts.canonicalJsonBytes_ne_nil {json : JsonModule} (inverts : json.Inverts)
    {value : Json} {bytes : List UInt8} (h : json.canonicalJsonBytes value = .ok bytes) :
    bytes ≠ [] := by
  rintro rfl
  have hloads := inverts.loads_canonicalJsonBytes h
  rw [inverts.loads_nil] at hloads
  exact Option.some_ne_none _ hloads.symm

/-- A JSON module for values without floating-point numbers. -/
def plainJson : JsonModule where
  dumps value := if value.sorted.floatFree then .ok value.sorted.bytes else .error .other
  loads := Json.ofBytes

theorem plainJson_inverts : plainJson.Inverts where
  loads_dumps value bytes h := by
    change (if value.sorted.floatFree = true then _ else _) = _ at h
    split at h
    · next free =>
      obtain rfl := Except.ok.inj h
      exact Json.ofBytes_bytes free
    · simp at h
  loads_nil := by decide +kernel

/-- `json.dumps` writes the compact text of a value, with the keys in order. -/
def JsonModule.Compact (json : JsonModule) : Prop :=
  ∀ value, value.floatFree = true → json.dumps value = .ok value.sorted.bytes

theorem plainJson_compact : plainJson.Compact := fun value free =>
  if_pos ((Json.floatFree_sorted value).trans free)

/-! ### Closed objects -/

/-- The fields of `closed_object`: no required one is missing, and each is required or
optional. -/
def closedFields (required optional : List String) (fields : List String) : Bool :=
  required.all (· ∈ fields) && fields.all fun field => field ∈ required || field ∈ optional

/-- `closed_object`. -/
def closedObject (required optional : List String) : Json → Option (List (String × Json))
  | .obj fields =>
    if closedFields required optional (fields.map Prod.fst) then some fields else none
  | _ => none

/-- Neither the order of the fields nor their values matter. -/
theorem closedFields_congr {required optional fields fields' : List String}
    (h : ∀ field, field ∈ fields ↔ field ∈ fields') :
    closedFields required optional fields = closedFields required optional fields' := by
  have hall : ∀ p : String → Bool, fields.all p = fields'.all p := by
    intro p
    rw [Bool.eq_iff_iff, List.all_eq_true, List.all_eq_true]
    exact forall_congr' fun field => imp_congr_left (h field)
  have hmem : (fun field => decide (field ∈ fields)) = fun field => decide (field ∈ fields') := by
    funext field
    exact decide_eq_decide.mpr (h field)
  unfold closedFields
  rw [hall, hmem]

/-! ### Values -/

/-- A Python value, as far as the adapter tells values apart. A sequence is neither a text
nor bytes. The key of a mapping that is not a text has no name. -/
inductive Value
  | null
  | bool (value : Bool)
  | int (value : ℤ)
  | float (bits : UInt64)
  | str (value : String)
  | bytes (value : List UInt8)
  | seq (items : List Value)
  | mapping (fields : List (Option String × Value))
  | other

/-- A mapping with these fields. -/
def Value.object (fields : List (String × Value)) : Value :=
  .mapping (fields.map fun f => (some f.1, f.2))

mutual

/-- What `json.loads` returns. -/
def Value.ofJson : Json → Value
  | .null => .null
  | .bool value => .bool value
  | .int value => .int value
  | .float bits => .float bits
  | .str value => .str value
  | .arr items => .seq (ofJsonItems items)
  | .obj fields => .mapping (ofJsonFields fields)

def Value.ofJsonItems : List Json → List Value
  | [] => []
  | item :: items => Value.ofJson item :: Value.ofJsonItems items

def Value.ofJsonFields : List (String × Json) → List (Option String × Value)
  | [] => []
  | (key, value) :: fields => (some key, Value.ofJson value) :: Value.ofJsonFields fields

end

namespace Value

/-- `bounded_string`. -/
def boundedString (maximum : ℕ) : Value → Checked String
  | .str value => if MeridianKafka.boundedString value maximum then .ok value else .error none
  | _ => .error none

/-- A bounded text, unless the value is null. -/
def optionalString (maximum : ℕ) : Value → Checked (Option String)
  | .null => .ok none
  | value => some <$> value.boundedString maximum

/-- `as_object`: a mapping whose keys are texts. -/
def asObject : Value → Checked (List (String × Value))
  | .mapping fields =>
    match fields.mapM fun f => f.1.map fun key => (key, f.2) with
    | some item => .ok item
    | none => .error none
  | _ => .error none

/-- `closed_object`. -/
def closedObject (required optional : List String) (value : Value) :
    Checked (List (String × Value)) := do
  let item ← value.asObject
  if closedFields required optional (item.map Prod.fst) then .ok item else .error none

/-- `item[name]`. -/
def field (item : List (String × Value)) (name : String) : Checked Value :=
  match item.lookup name with
  | some value => .ok value
  | none => .error none

/-- An integer within bounds. A boolean is none. -/
def integer (minimum : ℕ) (maximum : Option ℕ) : Value → Option ℕ
  | .int value =>
    if (minimum : ℤ) ≤ value ∧ ∀ m ∈ maximum, value ≤ (m : ℤ) then some value.toNat else none
  | _ => none

theorem boundedString_eq_ok_iff {maximum : ℕ} {value : Value} {text : String} :
    value.boundedString maximum = .ok text ↔
      value = .str text ∧ MeridianKafka.boundedString text maximum = true := by
  cases value with
  | str value' =>
    rw [boundedString]
    by_cases h : MeridianKafka.boundedString value' maximum = true
    · rw [if_pos h]
      refine ⟨fun htext => ?_, fun htext => ?_⟩
      · obtain rfl := Except.ok.inj htext
        exact ⟨rfl, h⟩
      · obtain rfl := Value.str.inj htext.1
        rfl
    · rw [if_neg h]
      refine iff_of_false (by simp) fun htext => h ?_
      obtain rfl := Value.str.inj htext.1
      exact htext.2
  | null | bool _ | int _ | float _ | bytes _ | seq _ | mapping _ | other =>
    exact iff_of_false (by simp [boundedString]) fun htext => by simp at htext

theorem closedObject_eq_ok_iff {required optional : List String} {value : Value}
    {item : List (String × Value)} :
    value.closedObject required optional = .ok item ↔
      value.asObject = .ok item ∧ closedFields required optional (item.map Prod.fst) = true := by
  unfold closedObject
  rw [Checked.bind_eq_ok_iff]
  refine ⟨?_, ?_⟩
  · rintro ⟨item', hobject, h⟩
    split at h
    · next hclosed =>
      obtain rfl := Except.ok.inj h
      exact ⟨hobject, hclosed⟩
    · simp at h
  · rintro ⟨hobject, hclosed⟩
    exact ⟨item, hobject, if_pos hclosed⟩

theorem field_eq_ok_iff {item : List (String × Value)} {name : String} {value : Value} :
    field item name = .ok value ↔ item.lookup name = some value := by
  unfold field
  cases item.lookup name with
  | some value' => simp
  | none => simp

theorem integer_eq_some_iff {minimum : ℕ} {maximum : Option ℕ} {value : Value} {n : ℕ} :
    value.integer minimum maximum = some n ↔
      value = .int n ∧ minimum ≤ n ∧ ∀ m ∈ maximum, n ≤ m := by
  unfold integer
  split
  · next k =>
    split
    · next h =>
      obtain ⟨hmin, hmax⟩ := h
      -- the lower bound makes the number a natural one
      have hk : (k.toNat : ℤ) = k := Int.toNat_of_nonneg (by omega)
      refine ⟨fun hn => ?_, fun hn => ?_⟩
      · obtain rfl := Option.some.inj hn
        refine ⟨by rw [hk], by omega, fun m hm => ?_⟩
        have := hmax m hm
        omega
      · have hkn : k = n := Value.int.inj hn.1
        subst hkn
        rfl
    · next h =>
      refine iff_of_false (by simp) fun hn => h ?_
      have hkn : k = n := Value.int.inj hn.1
      subst hkn
      exact ⟨by exact_mod_cast hn.2.1, fun m hm => by exact_mod_cast hn.2.2 m hm⟩
  · next h => exact iff_of_false (by simp) fun hn => h _ hn.1

/-- The fields of an object are read back. -/
@[simp] theorem asObject_object (fields : List (String × Value)) :
    (object fields).asObject = .ok fields := by
  have hmap : (fields.map fun f => ((some f.1 : Option String), f.2)).mapM
      (fun f : Option String × Value => f.1.map fun key => (key, f.2)) = some fields := by
    induction fields with
    | nil => rfl
    | cons field fields ih =>
      rw [List.map_cons, List.mapM_cons, ih]
      rfl
  rw [object, asObject, hmap]

/-- What is made of each item, when nothing is missing. -/
theorem mapM_eq_some_iff {α β : Type} {f : α → Option β} {l : List α} {l' : List β} :
    l.mapM f = some l' ↔ List.Forall₂ (fun a b => f a = some b) l l' := by
  induction l generalizing l' with
  | nil =>
    rw [List.forall₂_nil_left_iff]
    exact Option.some_inj.trans eq_comm
  | cons a l ih =>
    rw [List.mapM_cons, List.forall₂_cons_left_iff]
    change (f a).bind _ = _ ↔ _
    rw [Option.bind_eq_some_iff]
    refine exists_congr fun b => ?_
    change _ ∧ (l.mapM f).bind _ = _ ↔ _
    rw [Option.bind_eq_some_iff]
    constructor
    · rintro ⟨hb, bs, hbs, h⟩
      obtain rfl := Option.some.inj h
      exact ⟨bs, hb, ih.mp hbs, rfl⟩
    · rintro ⟨bs, hb, hbs, rfl⟩
      exact ⟨hb, bs, ih.mpr hbs, rfl⟩

/-- The fields of a reordered mapping are the fields, reordered. -/
theorem asObject_perm {fields fields' : List (Option String × Value)} (hperm : fields'.Perm fields)
    {document : List (String × Value)} (h : (mapping fields).asObject = .ok document) :
    ∃ document', (mapping fields').asObject = .ok document' ∧ document'.Perm document := by
  unfold asObject at h ⊢
  dsimp only at h ⊢
  split at h
  · next item hitem =>
    obtain rfl := Except.ok.inj h
    obtain ⟨document', hdocument', hdocument⟩ :=
      List.perm_comp_forall₂ hperm (mapM_eq_some_iff.mp hitem)
    refine ⟨document', ?_, hdocument⟩
    rw [mapM_eq_some_iff.mpr hdocument']
  · exact nomatch h

end Value

/-! ### Hashes -/

/-- Bytes in lower-case hexadecimal. -/
def hexDigits (bytes : List UInt8) : String :=
  String.ofList (bytes.flatMap fun byte =>
    [(byte.toNat / 16).digitChar, (byte.toNat % 16).digitChar])

theorem hexDigits_injective : Function.Injective hexDigits := by
  have hpair : ∀ byte byte' : UInt8, (byte.toNat / 16).digitChar = (byte'.toNat / 16).digitChar →
      (byte.toNat % 16).digitChar = (byte'.toNat % 16).digitChar → byte = byte' := by
    intro byte byte' hhigh hlow
    have hbyte := byte.toNat_lt
    have hbyte' := byte'.toNat_lt
    -- a digit has one value
    have hvalue := congrArg Json.hexValue hhigh
    have hvalue' := congrArg Json.hexValue hlow
    rw [Json.hexValue_digitChar _ (by omega), Json.hexValue_digitChar _ (by omega)]
      at hvalue hvalue'
    exact UInt8.toNat_inj.mp (by omega)
  intro bytes bytes' h
  have hchars := String.ofList_injective h
  clear h
  induction bytes generalizing bytes' with
  | nil =>
    cases bytes' with
    | nil => rfl
    | cons byte' bytes' => exact absurd hchars (by simp)
  | cons byte bytes ih =>
    cases bytes' with
    | nil => exact absurd hchars (by simp)
    | cons byte' bytes' =>
      rw [List.flatMap_cons, List.flatMap_cons] at hchars
      obtain ⟨hhigh, hrest⟩ := List.cons.inj hchars
      obtain ⟨hlow, hlater⟩ := List.cons.inj hrest
      rw [hpair byte byte' hhigh hlow, ih hlater]

/-- `hashlib.sha256`. -/
abbrev Sha256 := List UInt8 → Vector UInt8 32

namespace Sha256

variable (sha256 : Sha256)

/-- `sha256_bytes`. -/
def fingerprint (bytes : List UInt8) : String := "sha256:" ++ hexDigits (sha256 bytes).toList

theorem fingerprint_eq_iff {sha256 : Sha256} {bytes bytes' : List UInt8} :
    sha256.fingerprint bytes = sha256.fingerprint bytes' ↔ sha256 bytes = sha256 bytes' := by
  constructor
  · intro h
    exact Vector.toList_inj.mp (hexDigits_injective (String.append_right_inj _ |>.mp h))
  · intro h
    rw [fingerprint, fingerprint, h]

/-- `hmac.digest(key, message, "sha256")`. -/
def hmac (key message : List UInt8) : Vector UInt8 32 :=
  let key := if key.length > 64 then (sha256 key).toList else key
  let block := key ++ List.replicate (64 - key.length) 0
  sha256 (block.map (· ^^^ 0x5c) ++ (sha256 (block.map (· ^^^ 0x36) ++ message)).toList)

end Sha256

end MeridianKafka
