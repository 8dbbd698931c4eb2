import MeridianKafka.Canonical
import MeridianKafka.Framework.JsonSame
import MeridianKafka.Text

/-!
# Portable values

`canonical_json_bytes` takes any Python value. `json_value` copies it first, and refuses what is
not portable JSON; the text of the copy is then encoded.

What the bytes tell apart is what `PyValue.same` tells apart: values are the same when they are
equal but for the order of the keys of their mappings and for lists being tuples. A boolean is
not a number here, although `True == 1` in the language.
-/

namespace MeridianKafka

open Framework

/-- A Python value. The key of a mapping that is not a text has no name. -/
inductive PyValue
  | null
  | bool (value : Bool)
  | int (value : ℤ)
  | float (bits : UInt64)
  | str (text : PyText)
  | list (items : List PyValue)
  | tuple (items : List PyValue)
  | mapping (fields : List (Option PyText × PyValue))
  | other

/-- What the copy of a value raises. -/
inductive PortableError
  | valueError (message : String)
  | typeError (message : String)
  | unicodeEncodeError
  deriving DecidableEq, Repr

namespace PyValue

/-! ### Copying -/

/-- `bounded_string` of the key of a mapping. -/
def boundedKey (path : String) (key : Option PyText) : Except PortableError String :=
  let refused := PortableError.valueError (path ++ " key must be a bounded non-empty string")
  match key with
  | none => .error refused
  | some text =>
    match text.string? with
    | none => .error .unicodeEncodeError
    | some name => if boundedString name then .ok name else .error refused

mutual

/-- `json_value`. -/
def jsonValue (path : String) : PyValue → Except PortableError PyValue
  | .null => .ok .null
  | .bool value => .ok (.bool value)
  | .str text => .ok (.str text)
  | .int value => .ok (.int value)
  | .float bits =>
    if isFinite bits then .ok (.float bits)
    else .error (.valueError (path ++ " contains a non-finite number"))
  | .mapping fields => do return .mapping (← jsonFields path fields)
  | .list items => do return .list (← jsonItems path 0 items)
  | .tuple items => do return .list (← jsonItems path 0 items)
  | .other => .error (.typeError (path ++ " is not portable JSON"))

def jsonFields (path : String) :
    List (Option PyText × PyValue) → Except PortableError (List (Option PyText × PyValue))
  | [] => .ok []
  | (key, item) :: fields => do
    let name ← boundedKey path key
    let item ← jsonValue (path ++ "." ++ name) item
    return (key, item) :: (← jsonFields path fields)

def jsonItems (path : String) (index : ℕ) : List PyValue → Except PortableError (List PyValue)
  | [] => .ok []
  | item :: items => do
    let item ← jsonValue (path ++ "[" ++ toString index ++ "]") item
    return item :: (← jsonItems path (index + 1) items)

end

/-! ### The text -/

mutual

/-- The value as JSON, when every text in it has an encoding. -/
def json? : PyValue → Option Json
  | .null => some .null
  | .bool value => some (.bool value)
  | .int value => some (.int value)
  | .float bits => some (.float bits)
  | .str text => text.string?.map .str
  | .list items => (jsonItems? items).map .arr
  | .tuple items => (jsonItems? items).map .arr
  | .mapping fields => (jsonFields? fields).map .obj
  | .other => none

def jsonItems? : List PyValue → Option (List Json)
  | [] => some []
  | item :: items => do return (← item.json?) :: (← jsonItems? items)

def jsonFields? : List (Option PyText × PyValue) → Option (List (String × Json))
  | [] => some []
  | (key, item) :: fields => do
    let name ← (← key).string?
    return (name, ← item.json?) :: (← jsonFields? fields)

end

/-- `canonical_json_bytes`. -/
def canonicalJsonBytes (value : PyValue) (json : JsonModule) : Except Raised (List UInt8) :=
  match jsonValue "$" value with
  | .error _ => .error .other
  | .ok selected =>
    match selected.json? with
    | none => .error .other
    | some value => json.dumps value

/-! ### Equal values -/

mutual

/-- Two values are equal but for the order of the keys and for lists being tuples. -/
def same : PyValue → PyValue → Bool
  | .null, .null => true
  | .bool b, .bool b' => b = b'
  | .int n, .int n' => n = n'
  | .float bits, .float bits' => bits = bits'
  | .str text, .str text' => text = text'
  | .list items, .list items' => sameItems items items'
  | .list items, .tuple items' => sameItems items items'
  | .tuple items, .list items' => sameItems items items'
  | .tuple items, .tuple items' => sameItems items items'
  | .mapping fields, .mapping fields' =>
    fields.length = fields'.length && sameFields fields fields'
  | _, _ => false

def sameItems : List PyValue → List PyValue → Bool
  | [], [] => true
  | item :: items, item' :: items' => item.same item' && sameItems items items'
  | _, _ => false

/-- Each key is found among the other ones, with the same value. -/
def sameFields :
    List (Option PyText × PyValue) → List (Option PyText × PyValue) → Bool
  | [], _ => true
  | (key, item) :: fields, fields' =>
    (match fields'.lookup key with
      | some item' => item.same item'
      | none => false) && sameFields fields fields'

end

mutual

/-- No mapping has two keys with one text, as is so of every mapping. -/
def keysDistinct : PyValue → Bool
  | .list items => keysDistinctItems items
  | .tuple items => keysDistinctItems items
  | .mapping fields => (fields.filterMap Prod.fst).Nodup && keysDistinctFields fields
  | .null => true
  | .bool _ => true
  | .int _ => true
  | .float _ => true
  | .str _ => true
  | .other => true

def keysDistinctItems : List PyValue → Bool
  | [] => true
  | item :: items => item.keysDistinct && keysDistinctItems items

def keysDistinctFields : List (Option PyText × PyValue) → Bool
  | [] => true
  | (_, item) :: fields => item.keysDistinct && keysDistinctFields fields

end

mutual

/-- No floating-point number occurs. -/
def floatFree : PyValue → Bool
  | .float _ => false
  | .list items => floatFreeItems items
  | .tuple items => floatFreeItems items
  | .mapping fields => floatFreeFields fields
  | .null => true
  | .bool _ => true
  | .int _ => true
  | .str _ => true
  | .other => true

def floatFreeItems : List PyValue → Bool
  | [] => true
  | item :: items => item.floatFree && floatFreeItems items

def floatFreeFields : List (Option PyText × PyValue) → Bool
  | [] => true
  | (_, item) :: fields => item.floatFree && floatFreeFields fields

end

/-! ### Reading a value as JSON

One equation for each step of `json?`, and what becomes of the fields of a mapping. -/

theorem jsonItems?_cons {item : PyValue} {items : List PyValue} {values : List Json} :
    jsonItems? (item :: items) = some values ↔
      ∃ value values', item.json? = some value ∧ jsonItems? items = some values' ∧
        values = value :: values' := by
  rw [jsonItems?]
  simp only [Option.bind_eq_bind, Option.bind_eq_some_iff, Option.pure_def, Option.some_inj]
  constructor
  · rintro ⟨value, hvalue, values', hvalues, rfl⟩
    exact ⟨value, values', hvalue, hvalues, rfl⟩
  · rintro ⟨value, values', hvalue, hvalues, rfl⟩
    exact ⟨value, hvalue, values', hvalues, rfl⟩

theorem jsonFields?_cons {key : Option PyText} {item : PyValue}
    {fields : List (Option PyText × PyValue)} {values : List (String × Json)} :
    jsonFields? ((key, item) :: fields) = some values ↔
      ∃ name value values', key = some (PyText.ofString name) ∧ item.json? = some value ∧
        jsonFields? fields = some values' ∧ values = (name, value) :: values' := by
  rw [jsonFields?]
  simp only [Option.bind_eq_bind, Option.bind_eq_some_iff, Option.pure_def, Option.some_inj,
    PyText.string?_eq_some_iff]
  constructor
  · rintro ⟨_, rfl, name, rfl, value, hvalue, values', hvalues, rfl⟩
    exact ⟨name, value, values', rfl, hvalue, hvalues, rfl⟩
  · rintro ⟨name, value, values', rfl, hvalue, hvalues, rfl⟩
    exact ⟨_, rfl, name, rfl, value, hvalue, values', hvalues, rfl⟩

/-- A key is looked up among the texts as it is among the keys. -/
theorem lookup_jsonFields? {fields : List (Option PyText × PyValue)}
    {values : List (String × Json)} (h : jsonFields? fields = some values) (name : String) :
    (fields.lookup (some (PyText.ofString name)) = none ∧ values.lookup name = none) ∨
      ∃ item value, fields.lookup (some (PyText.ofString name)) = some item ∧
        values.lookup name = some value ∧ item.json? = some value := by
  induction fields generalizing values with
  | nil =>
    obtain rfl := Option.some.inj h
    exact Or.inl ⟨rfl, rfl⟩
  | cons field fields ih =>
    obtain ⟨key, item⟩ := field
    obtain ⟨name', value, values', rfl, hvalue, hvalues, rfl⟩ := jsonFields?_cons.mp h
    rw [List.lookup_cons, List.lookup_cons]
    by_cases hname : name = name'
    · subst hname
      rw [beq_self_eq_true, beq_self_eq_true]
      exact Or.inr ⟨item, value, rfl, rfl, hvalue⟩
    · have hkey : some (PyText.ofString name) ≠ some (PyText.ofString name') := fun heq =>
        hname (PyText.ofString_injective (Option.some.inj heq))
      rw [beq_eq_false_iff_ne.mpr hname, beq_eq_false_iff_ne.mpr hkey]
      exact ih hvalues

theorem filterMap_jsonFields? {fields : List (Option PyText × PyValue)}
    {values : List (String × Json)} (h : jsonFields? fields = some values) :
    fields.filterMap Prod.fst = (values.map Prod.fst).map PyText.ofString := by
  induction fields generalizing values with
  | nil =>
    obtain rfl := Option.some.inj h
    rfl
  | cons field fields ih =>
    obtain ⟨key, item⟩ := field
    obtain ⟨name, value, values', rfl, -, hvalues, rfl⟩ := jsonFields?_cons.mp h
    rw [List.filterMap_cons, ih hvalues]
    rfl

theorem length_jsonFields? {fields : List (Option PyText × PyValue)}
    {values : List (String × Json)} (h : jsonFields? fields = some values) :
    fields.length = values.length := by
  induction fields generalizing values with
  | nil =>
    obtain rfl := Option.some.inj h
    rfl
  | cons field fields ih =>
    obtain ⟨key, item⟩ := field
    obtain ⟨name, value, values', -, -, hvalues, rfl⟩ := jsonFields?_cons.mp h
    rw [List.length_cons, List.length_cons, ih hvalues]

/-! ### The copy

`json?` does not tell the copy of a value from the value, and a copied value is portable. -/

theorem boundedKey_eq_ok {path name : String} {key : Option PyText}
    (h : boundedKey path key = .ok name) :
    key = some (PyText.ofString name) ∧ boundedString name = true := by
  unfold boundedKey at h
  dsimp only at h
  split at h
  · exact absurd h (by simp)
  · next text =>
    split at h
    · exact absurd h (by simp)
    · next name' hname =>
      split at h
      · next hbounded =>
        obtain rfl := Except.ok.inj h
        exact ⟨congrArg some (PyText.string?_eq_some_iff.mp hname), hbounded⟩
      · exact absurd h (by simp)

/-- What is known of a copy. -/
structure Copied (value copy : PyValue) : Prop where
  json?_eq : copy.json? = value.json?
  portable : ∀ j, value.json? = some j → portable j = true

mutual

theorem copied_of_jsonValue : ∀ {path : String} {value copy : PyValue},
    jsonValue path value = .ok copy → Copied value copy
  | _, .null, _, h | _, .bool _, _, h | _, .int _, _, h => by
    obtain rfl := Except.ok.inj h
    refine ⟨rfl, fun j hj => ?_⟩
    obtain rfl := Option.some.inj hj
    rfl
  | _, .str text, _, h => by
    obtain rfl := Except.ok.inj h
    refine ⟨rfl, fun j hj => ?_⟩
    obtain ⟨s, -, rfl⟩ := Option.map_eq_some_iff.mp hj
    rfl
  | path, .float bits, copy, h => by
    rw [jsonValue] at h
    split at h
    · next hfinite =>
      obtain rfl := Except.ok.inj h
      refine ⟨rfl, fun j hj => ?_⟩
      obtain rfl := Option.some.inj hj
      exact hfinite
    · exact absurd h (by simp)
  | path, .list items, copy, h | path, .tuple items, copy, h => by
    obtain ⟨copies, hcopies, h⟩ := bind_eq_ok_iff.mp h
    obtain rfl := Except.ok.inj h
    obtain ⟨hjson, hportable⟩ := copied_of_jsonItems hcopies
    refine ⟨congrArg (Option.map Json.arr) hjson, fun j hj => ?_⟩
    obtain ⟨values, hvalues, rfl⟩ := Option.map_eq_some_iff.mp hj
    exact hportable values hvalues
  | path, .mapping fields, copy, h => by
    obtain ⟨copies, hcopies, h⟩ := bind_eq_ok_iff.mp h
    obtain rfl := Except.ok.inj h
    obtain ⟨hjson, hportable⟩ := copied_of_jsonFields hcopies
    refine ⟨congrArg (Option.map Json.obj) hjson, fun j hj => ?_⟩
    obtain ⟨values, hvalues, rfl⟩ := Option.map_eq_some_iff.mp hj
    exact hportable values hvalues

theorem copied_of_jsonItems : ∀ {path : String} {index : ℕ} {items copies : List PyValue},
    jsonItems path index items = .ok copies →
      jsonItems? copies = jsonItems? items ∧
        ∀ values, jsonItems? items = some values → portableItems values = true
  | _, _, [], _, h => by
    obtain rfl := Except.ok.inj h
    refine ⟨rfl, fun values hvalues => ?_⟩
    obtain rfl := Option.some.inj hvalues
    rfl
  | _, _, item :: items, _, h => by
    obtain ⟨copy, hcopy, h⟩ := bind_eq_ok_iff.mp h
    obtain ⟨copies, hcopies, h⟩ := bind_eq_ok_iff.mp h
    obtain rfl := Except.ok.inj h
    obtain ⟨hjson, hportable⟩ := copied_of_jsonValue hcopy
    obtain ⟨hjsons, hportables⟩ := copied_of_jsonItems hcopies
    refine ⟨?_, fun values hvalues => ?_⟩
    · rw [jsonItems?, jsonItems?, hjson, hjsons]
    · obtain ⟨value, values', hvalue, hvalues', rfl⟩ := jsonItems?_cons.mp hvalues
      rw [portableItems, hportable value hvalue, hportables values' hvalues', Bool.and_self]

theorem copied_of_jsonFields : ∀ {path : String} {fields copies : List (Option PyText × PyValue)},
    jsonFields path fields = .ok copies →
      jsonFields? copies = jsonFields? fields ∧
        ∀ values, jsonFields? fields = some values → portableFields values = true
  | _, [], _, h => by
    obtain rfl := Except.ok.inj h
    refine ⟨rfl, fun values hvalues => ?_⟩
    obtain rfl := Option.some.inj hvalues
    rfl
  | _, (key, item) :: fields, _, h => by
    obtain ⟨name, hname, h⟩ := bind_eq_ok_iff.mp h
    obtain ⟨copy, hcopy, h⟩ := bind_eq_ok_iff.mp h
    obtain ⟨copies, hcopies, h⟩ := bind_eq_ok_iff.mp h
    obtain rfl := Except.ok.inj h
    -- the key is kept, and its JSON has the name that was checked
    obtain ⟨rfl, hbounded⟩ := boundedKey_eq_ok hname
    obtain ⟨hjson, hportable⟩ := copied_of_jsonValue hcopy
    obtain ⟨hjsons, hportables⟩ := copied_of_jsonFields hcopies
    refine ⟨?_, fun values hvalues => ?_⟩
    · rw [jsonFields?, jsonFields?, hjson, hjsons]
    · obtain ⟨name', value, values', heq, hvalue, hvalues', rfl⟩ := jsonFields?_cons.mp hvalues
      obtain rfl := PyText.ofString_injective (Option.some.inj heq)
      rw [portableFields, hbounded, hportable value hvalue, hportables values' hvalues']
      rfl

end

/-- The bytes of an accepted value are those of its JSON. -/
theorem canonicalJsonBytes_eq_ok {json : JsonModule} {value : PyValue} {bytes : List UInt8}
    (h : value.canonicalJsonBytes json = .ok bytes) :
    ∃ j, value.json? = some j ∧ json.canonicalJsonBytes j = .ok bytes := by
  unfold canonicalJsonBytes at h
  split at h
  · exact absurd h (by simp)
  · next copy hcopy =>
    obtain ⟨hjson, hportable⟩ := copied_of_jsonValue hcopy
    split at h
    · exact absurd h (by simp)
    · next j hj =>
      rw [hjson] at hj
      exact ⟨j, hj, (if_pos (hportable j hj)).trans h⟩

/-! ### The JSON of a value

Its JSON is as free of floating-point numbers and of repeated keys as the value, and two values
are the same when their JSON is. -/

/-- How a value is read as JSON. -/
inductive Reads : PyValue → Json → Prop
  | null : Reads .null .null
  | bool (value : Bool) : Reads (.bool value) (.bool value)
  | int (value : ℤ) : Reads (.int value) (.int value)
  | float (bits : UInt64) : Reads (.float bits) (.float bits)
  | str (text : String) : Reads (.str (PyText.ofString text)) (.str text)
  | list {items : List PyValue} {values : List Json} (h : jsonItems? items = some values) :
    Reads (.list items) (.arr values)
  | tuple {items : List PyValue} {values : List Json} (h : jsonItems? items = some values) :
    Reads (.tuple items) (.arr values)
  | mapping {fields : List (Option PyText × PyValue)} {values : List (String × Json)}
    (h : jsonFields? fields = some values) : Reads (.mapping fields) (.obj values)

theorem reads_of_json? {value : PyValue} {j : Json} (h : value.json? = some j) : Reads value j := by
  cases value with
  | null => exact Option.some.inj h ▸ .null
  | bool value => exact Option.some.inj h ▸ .bool value
  | int value => exact Option.some.inj h ▸ .int value
  | float bits => exact Option.some.inj h ▸ .float bits
  | str text =>
    obtain ⟨s, hs, rfl⟩ := Option.map_eq_some_iff.mp h
    obtain rfl := PyText.string?_eq_some_iff.mp hs
    exact .str s
  | list items =>
    obtain ⟨values, hvalues, rfl⟩ := Option.map_eq_some_iff.mp h
    exact .list hvalues
  | tuple items =>
    obtain ⟨values, hvalues, rfl⟩ := Option.map_eq_some_iff.mp h
    exact .tuple hvalues
  | mapping fields =>
    obtain ⟨values, hvalues, rfl⟩ := Option.map_eq_some_iff.mp h
    exact .mapping hvalues
  | other => exact absurd h (by simp [json?])

/-- What a value has, its JSON has. -/
structure Kept (value : PyValue) (j : Json) : Prop where
  floatFree : value.floatFree = true → j.floatFree = true
  keysDistinct : value.keysDistinct = true → j.keysDistinct = true

mutual

theorem kept_of_json? : ∀ {value : PyValue} {j : Json}, value.json? = some j → Kept value j
  | .null, _, h | .bool _, _, h | .int _, _, h | .str _, _, h => by
    cases reads_of_json? h
    exact ⟨fun _ => rfl, fun _ => rfl⟩
  | .float _, _, h => by
    cases reads_of_json? h
    exact ⟨fun free => absurd free Bool.false_ne_true, fun _ => rfl⟩
  | .list items, _, h | .tuple items, _, h => by
    obtain ⟨values, hvalues, rfl⟩ := Option.map_eq_some_iff.mp h
    obtain ⟨hfree, hdistinct⟩ := kept_of_jsonItems? hvalues
    exact ⟨hfree, hdistinct⟩
  | .mapping fields, _, h => by
    obtain ⟨values, hvalues, rfl⟩ := Option.map_eq_some_iff.mp h
    obtain ⟨hfree, hdistinct⟩ := kept_of_jsonFields? hvalues
    refine ⟨hfree, fun distinct => ?_⟩
    rw [keysDistinct, Bool.and_eq_true, decide_eq_true_eq, filterMap_jsonFields? hvalues]
      at distinct
    rw [Json.keysDistinct, Bool.and_eq_true, decide_eq_true_eq]
    exact ⟨distinct.1.of_map, hdistinct distinct.2⟩

theorem kept_of_jsonItems? : ∀ {items : List PyValue} {values : List Json},
    jsonItems? items = some values →
      (floatFreeItems items = true → Json.floatFreeItems values = true) ∧
        (keysDistinctItems items = true → Json.keysDistinctItems values = true)
  | [], _, h => by
    obtain rfl := Option.some.inj h
    exact ⟨fun _ => rfl, fun _ => rfl⟩
  | item :: items, _, h => by
    obtain ⟨value, values, hvalue, hvalues, rfl⟩ := jsonItems?_cons.mp h
    have hitem := kept_of_json? hvalue
    have hitems := kept_of_jsonItems? hvalues
    refine ⟨fun free => ?_, fun distinct => ?_⟩
    · obtain ⟨hfirst, hlater⟩ := Bool.and_eq_true_iff.mp free
      exact Bool.and_eq_true_iff.mpr ⟨hitem.floatFree hfirst, hitems.1 hlater⟩
    · obtain ⟨hfirst, hlater⟩ := Bool.and_eq_true_iff.mp distinct
      exact Bool.and_eq_true_iff.mpr ⟨hitem.keysDistinct hfirst, hitems.2 hlater⟩

theorem kept_of_jsonFields? : ∀ {fields : List (Option PyText × PyValue)}
    {values : List (String × Json)}, jsonFields? fields = some values →
      (floatFreeFields fields = true → Json.floatFreeFields values = true) ∧
        (keysDistinctFields fields = true → Json.keysDistinctFields values = true)
  | [], _, h => by
    obtain rfl := Option.some.inj h
    exact ⟨fun _ => rfl, fun _ => rfl⟩
  | (key, item) :: fields, _, h => by
    obtain ⟨name, value, values, -, hvalue, hvalues, rfl⟩ := jsonFields?_cons.mp h
    have hitem := kept_of_json? hvalue
    have hfields := kept_of_jsonFields? hvalues
    refine ⟨fun free => ?_, fun distinct => ?_⟩
    · obtain ⟨hfirst, hlater⟩ := Bool.and_eq_true_iff.mp free
      exact Bool.and_eq_true_iff.mpr ⟨hitem.floatFree hfirst, hfields.1 hlater⟩
    · obtain ⟨hfirst, hlater⟩ := Bool.and_eq_true_iff.mp distinct
      exact Bool.and_eq_true_iff.mpr ⟨hitem.keysDistinct hfirst, hfields.2 hlater⟩

end

mutual

/-- Two values are the same when their JSON is. -/
theorem same_json? : ∀ {v w : PyValue} {j k : Json}, v.json? = some j → w.json? = some k →
    v.same w = j.same k
  | .null, _, _, _, hv, hw | .bool _, _, _, _, hv, hw | .int _, _, _, _, hv, hw
  | .float _, _, _, _, hv, hw => by
    obtain rfl := Option.some.inj hv
    cases reads_of_json? hw <;> rfl
  | .str _, _, _, _, hv, hw => by
    cases reads_of_json? hv with
    | str text =>
      cases reads_of_json? hw with
      | str text' =>
        show decide (PyText.ofString text = PyText.ofString text') = decide (text = text')
        exact decide_eq_decide.mpr PyText.ofString_injective.eq_iff
      | null | bool | int | float | list | tuple | mapping => rfl
  -- lists and tuples have the same JSON
  | .list items, _, _, _, hv, hw | .tuple items, _, _, _, hv, hw => by
    obtain ⟨values, hvalues, rfl⟩ := Option.map_eq_some_iff.mp hv
    cases reads_of_json? hw with
    | list h => exact sameItems_jsonItems? hvalues h
    | tuple h => exact sameItems_jsonItems? hvalues h
    | null | bool | int | float | str | mapping => rfl
  | .mapping fields, _, _, _, hv, hw => by
    obtain ⟨values, hvalues, rfl⟩ := Option.map_eq_some_iff.mp hv
    cases reads_of_json? hw with
    | mapping h =>
      rw [same, Json.same, length_jsonFields? hvalues, length_jsonFields? h,
        sameFields_jsonFields? hvalues h]
    | null | bool | int | float | str | list | tuple => rfl

theorem sameItems_jsonItems? : ∀ {items items' : List PyValue} {values values' : List Json},
    jsonItems? items = some values → jsonItems? items' = some values' →
      sameItems items items' = Json.sameItems values values'
  | [], [], _, _, h, h' => by
    obtain rfl := Option.some.inj h
    obtain rfl := Option.some.inj h'
    rfl
  | [], _ :: _, _, _, h, h' => by
    obtain rfl := Option.some.inj h
    obtain ⟨_, _, -, -, rfl⟩ := jsonItems?_cons.mp h'
    rfl
  | _ :: _, [], _, _, h, h' => by
    obtain ⟨_, _, -, -, rfl⟩ := jsonItems?_cons.mp h
    obtain rfl := Option.some.inj h'
    rfl
  | item :: items, item' :: items', _, _, h, h' => by
    obtain ⟨value, values, hvalue, hvalues, rfl⟩ := jsonItems?_cons.mp h
    obtain ⟨value', values', hvalue', hvalues', rfl⟩ := jsonItems?_cons.mp h'
    rw [sameItems, Json.sameItems, same_json? hvalue hvalue', sameItems_jsonItems? hvalues hvalues']

theorem sameFields_jsonFields? : ∀ {fields fields' : List (Option PyText × PyValue)}
    {values values' : List (String × Json)}, jsonFields? fields = some values →
      jsonFields? fields' = some values' →
        sameFields fields fields' = Json.sameFields values values'
  | [], _, _, _, h, _ => by
    obtain rfl := Option.some.inj h
    rfl
  | (key, item) :: fields, fields', _, values', h, h' => by
    obtain ⟨name, value, values, rfl, hvalue, hvalues, rfl⟩ := jsonFields?_cons.mp h
    rw [sameFields, Json.sameFields, sameFields_jsonFields? hvalues h']
    obtain ⟨hkey, hname⟩ | ⟨item', value', hkey, hname, hvalue'⟩ := lookup_jsonFields? h' name
    · rw [hkey, hname]
    · rw [hkey, hname]
      dsimp only
      rw [same_json? hvalue hvalue']

end

end PyValue

/-! ### A faithful key -/

/-- `json.dumps` writes the compact text of a value with the keys in order, whenever it writes
one. -/
def JsonModule.Writes (json : JsonModule) : Prop :=
  ∀ value bytes, value.floatFree = true → json.dumps value = .ok bytes → bytes = value.sorted.bytes

theorem JsonModule.Compact.writes {json : JsonModule} (compact : json.Compact) : json.Writes := by
  intro value bytes free h
  rw [compact value free] at h
  exact (Except.ok.inj h).symm

/-- The canonical bytes of JSON values agree when the values are the same. -/
theorem JsonModule.Writes.bytes_eq_iff {json : JsonModule} (writes : json.Writes) {v w : Json}
    (free : v.floatFree = true) (free' : w.floatFree = true) (distinct : v.keysDistinct = true)
    (distinct' : w.keysDistinct = true) {bytes bytes' : List UInt8}
    (h : json.canonicalJsonBytes v = .ok bytes) (h' : json.canonicalJsonBytes w = .ok bytes') :
    bytes = bytes' ↔ v.same w = true := by
  have hdumps : ∀ {u : Json} {b : List UInt8}, json.canonicalJsonBytes u = .ok b →
      json.dumps u = .ok b := by
    intro u b hu
    unfold JsonModule.canonicalJsonBytes at hu
    split at hu
    · exact hu
    · exact absurd hu (by simp)
  rw [writes v bytes free (hdumps h), writes w bytes' free' (hdumps h')]
  exact Json.sorted_bytes_eq_iff_same free free' distinct distinct'

/-- A value without floating-point numbers. Like every value of the language it has no mapping with
two keys of one text. -/
structure PlainValue where
  value : PyValue
  floatFree : value.floatFree = true
  keysDistinct : value.keysDistinct = true

/-- **Canonical JSON is a faithful key**: the bytes of two accepted values without floating-point
numbers agree exactly when the values are the same. -/
theorem PlainValue.canonicalJsonBytes_eq_iff_same {json : JsonModule} (writes : json.Writes)
    {v w : PlainValue} {bytes bytes' : List UInt8}
    (h : v.value.canonicalJsonBytes json = .ok bytes)
    (h' : w.value.canonicalJsonBytes json = .ok bytes') :
    bytes = bytes' ↔ v.value.same w.value = true := by
  obtain ⟨j, hj, hbytes⟩ := PyValue.canonicalJsonBytes_eq_ok h
  obtain ⟨k, hk, hbytes'⟩ := PyValue.canonicalJsonBytes_eq_ok h'
  have hkept := PyValue.kept_of_json? hj
  have hkept' := PyValue.kept_of_json? hk
  rw [PyValue.same_json? hj hk]
  exact writes.bytes_eq_iff (hkept.floatFree v.floatFree) (hkept'.floatFree w.floatFree)
    (hkept.keysDistinct v.keysDistinct) (hkept'.keysDistinct w.keysDistinct) hbytes hbytes'

end MeridianKafka
