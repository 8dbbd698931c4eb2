import MeridianKafka.Compiler.Scope

/-!
# Which Operations end in a bare exception

A malformed Operation should be reported as an input error. The helpers of the compiler do
so; `bounded_string`, `as_object` and the constructor of a reference, which it shares with
the rest of the adapter, raise a `ValueError` or a `TypeError`, and where a method calls
them outside of a `try` the exception leaves the compiler.

`Escapes` lists the inputs for which that happens: for each contract the fields that are
read without a `try`, and the checks that come before them. Everything else is reported
(`compile_reports_iff`). There is one rule for each helper and one for each method, read
off its lines in their order: a step either cannot raise a bare exception (`bare_next`) or
does so under a condition on its argument (`bare_here`).
-/

namespace MeridianKafka

open Framework Config

namespace KafkaOperationCompiler

/-! ### Fields that are read without a `try` -/

/-- `value[name]` of a closed input, or `value.get(name)`. -/
def fieldOf (input : List (String × Value)) (name : String) : Value :=
  (input.lookup name).getD .null

/-- `bounded_string` refuses the value. -/
def unbounded (maximum : ℕ) : Value → Bool
  | .str text => !boundedString text maximum
  | _ => true

/-- The value is given, and `bounded_string` refuses it. -/
def unboundedOption (maximum : ℕ) : Value → Bool
  | .null => false
  | value => unbounded maximum value

/-- `as_object` takes the value. -/
def isObject : Value → Bool
  | .mapping fields => fields.all fun f => f.1.isSome
  | _ => false

/-- `_opaque` takes the value. -/
def isToken : Value → Bool
  | .str text => boundedString text 4096
  | .mapping _ => true
  | _ => false

/-- `_optional_opaque` takes the value. -/
def isOptionalToken : Value → Bool
  | .null => true
  | value => isToken value

/-- A text that is too long, too short or not printable for `_opaque`. -/
def unboundedToken : Value → Bool
  | .str text => !boundedString text 4096
  | _ => false

section Escapes

variable (lib : CompilerLibraries) (settings : KafkaBindingSettings)

/-- `_publish`, where the events are in order and the key is not. -/
def PublishEscapes (value : Value) (batch : Bool) : Prop :=
  ∃ input, closed value (if batch then "publish-batch" else "publish") ["resource", "data"]
      ["idempotencyKey"] = .ok input ∧
    ∃ s, stream lib settings input "resource" = .ok s ∧
      ∃ es, events lib (fieldOf input "data") batch s = .ok es ∧
        unboundedOption 512 (fieldOf input "idempotencyKey") = true

/-- `_subscribe`, where the references are in order and the options are no object. -/
def SubscribeEscapes (value : Value) : Prop :=
  ∃ input, closed value "subscribe" ["stream", "subscription", "options"] = .ok input ∧
    ∃ s, stream lib settings input "stream" = .ok s ∧
      ∃ r, ref lib input "subscription" = .ok r ∧
        ∃ sub, settings.subscription r = .ok sub ∧ sub.stream = s.ref ∧
          isObject (fieldOf input "options") = false

/-- `_acknowledge`, where the group is found and the delivery is no bounded text. -/
def AcknowledgeEscapes (value : Value) : Prop :=
  ∃ input, closed value "acknowledge" ["subscription", "consumerGroup", "delivery"] = .ok input ∧
    (∃ g, groupStream lib settings input = .ok g) ∧
      unboundedToken (fieldOf input "delivery") = true

/-- `_negative_acknowledge`: the same, or the classification is no bounded text. -/
def NegativeAcknowledgeEscapes (value : Value) : Prop :=
  ∃ input, closed value "negative-acknowledge" ["subscription", "consumerGroup", "delivery"]
      ["retryAfterMs", "classification"] = .ok input ∧
    (∃ g, groupStream lib settings input = .ok g) ∧
      (unboundedOption 256 (fieldOf input "classification") = true ∨
        unboundedToken (fieldOf input "delivery") = true)

/-- One of the texts of a range is not bounded, and those before it are in order. -/
def BoundEscapes : List Value → Prop
  | [] => False
  | value :: rest => unboundedToken value = true ∨ isOptionalToken value = true ∧ BoundEscapes rest

/-- `_read_range`. -/
def ReadRangeEscapes (value : Value) : Prop :=
  ∃ input, closed value "read-range" ["resource", "start", "end", "cursor", "limit"] = .ok input ∧
    (∃ s, stream lib settings input "resource" = .ok s) ∧
      BoundEscapes [fieldOf input "start", fieldOf input "end", fieldOf input "cursor"]

/-- `_replay`. -/
def ReplayEscapes (value : Value) : Prop :=
  ∃ input, closed value "replay"
      ["stream", "start", "end", "limit", "authorizationRef", "reason", "mutatesConsumerGroup"] =
        .ok input ∧
    isFalse (fieldOf input "mutatesConsumerGroup") = true ∧
      (∃ s, stream lib settings input "stream" = .ok s) ∧
        BoundEscapes [fieldOf input "start", fieldOf input "end"]

/-- `_group_position`. -/
def GroupPositionEscapes (value : Value) : Prop :=
  ∃ input, closed value "group-position"
      ["subscription", "consumerGroup", "position", "expectedPositionFingerprint",
        "authorizationRef", "reason"] = .ok input ∧
    (∃ g, groupStream lib settings input = .ok g) ∧
      (unboundedToken (fieldOf input "position") = true ∨
        isToken (fieldOf input "position") = true ∧
          unbounded 71 (fieldOf input "expectedPositionFingerprint") = true)

/-- `_validate_schema`. -/
def ValidateSchemaEscapes (value : Value) : Prop :=
  ∃ input, closed value "publish-schema"
      ["namespace", "name", "version", "definition", "allowBreaking"]
      ["expectedRegistryRevision"] = .ok input ∧
    (isObject (fieldOf input "definition") = false ∨
      unbounded 256 (fieldOf input "namespace") = true ∨
        unbounded 256 (fieldOf input "name") = true ∨
          unbounded 256 (fieldOf input "version") = true)

/-- `_validate_resource`: a text is not bounded, the reference is refused, or the resource is
found and the type is no bounded text. -/
def ValidateResourceEscapes (value : Value) : Prop :=
  ∃ input, closed value "create-resource"
      ["namespace", "name", "resourceType", "schema", "options"] = .ok input ∧
    (isObject (fieldOf input "options") = false ∨
      unbounded 256 (fieldOf input "namespace") = true ∨
        unbounded 256 (fieldOf input "name") = true ∨
          ∃ namespaceName name, fieldOf input "namespace" = .str namespaceName ∧
            fieldOf input "name" = .str name ∧
            (lib.core.resourceRef "streaming" namespaceName name = .error none ∨
              ∃ r, lib.core.resourceRef "streaming" namespaceName name = .ok r ∧
                (∃ resource, settings.resource r = .ok resource) ∧
                  unbounded 64 (fieldOf input "resourceType") = true))

/-- An output of a transaction that is no object, or that is one and escapes as an Operation. -/
def OutputEscapes (item : Value) : Prop :=
  isObject item = false ∨
    ∃ fields, item.asObject = .ok fields ∧ PublishEscapes lib settings (.object fields) false

/-- The Operation that `_transactional` hands to `_poll`. -/
def pollInput (input : List (String × Value)) : Value :=
  .object
    [("subscription", fieldOf input "subscription"),
      ("consumerGroup", fieldOf input "consumerGroup"), ("limit", fieldOf input "limit"),
      ("waitTimeoutMs", fieldOf input "waitTimeoutMs")]

/-- An output of a transaction, compiled. -/
def output (item : Value) : Checked PublishCommand := do
  publish lib settings (.object (← item.asObject)) false

/-- `_transactional`: the poll is in order and the delivery is no bounded text, or both are
in order and the first output that is not escapes. -/
def TransactionalEscapes (value : Value) : Prop :=
  settings.transactionEnabled = true ∧
    ∃ input, closed value "transactional-consume-publish"
        ["subscription", "consumerGroup", "limit", "waitTimeoutMs", "delivery", "outputs"] =
          .ok input ∧
      (∃ command, poll lib settings (pollInput input) = .ok command) ∧
        (unboundedToken (fieldOf input "delivery") = true ∨
          isToken (fieldOf input "delivery") = true ∧
            ∃ before item after, fieldOf input "outputs" = .seq (before ++ item :: after) ∧
              (before ++ item :: after).length ≤ lib.maxBatchSize ∧
              (∀ b ∈ before, ∃ command, output lib settings b = .ok command) ∧
              OutputEscapes lib settings item)

/-- The inputs of each contract for which a bare exception leaves the compiler. There is none
for `poll`. -/
inductive InputEscapes : String → Value → Prop
  | publish {value : Value} : PublishEscapes lib settings value false →
      InputEscapes "meridian.streaming.publish" value
  | publishBatch {value : Value} : PublishEscapes lib settings value true →
      InputEscapes "meridian.streaming.publish-batch" value
  | subscribe {value : Value} : SubscribeEscapes lib settings value →
      InputEscapes "meridian.streaming.subscribe" value
  | acknowledge {value : Value} : AcknowledgeEscapes lib settings value →
      InputEscapes "meridian.streaming.acknowledge" value
  | negativeAcknowledge {value : Value} : NegativeAcknowledgeEscapes lib settings value →
      InputEscapes "meridian.streaming.negative-acknowledge" value
  | readRange {value : Value} : ReadRangeEscapes lib settings value →
      InputEscapes "meridian.streaming.read-range" value
  | replay {value : Value} : ReplayEscapes lib settings value →
      InputEscapes "meridian.streaming.replay" value
  | groupPosition {value : Value} : GroupPositionEscapes lib settings value →
      InputEscapes "meridian.streaming.group-position" value
  | validateSchema {value : Value} : ValidateSchemaEscapes value →
      InputEscapes "meridian.streaming.publish-schema" value
  | validateResource {value : Value} : ValidateResourceEscapes lib settings value →
      InputEscapes "meridian.streaming.create-resource" value
  | transactional {value : Value} : TransactionalEscapes lib settings value →
      InputEscapes transactionOperationContract value

/-- The Operations for which a bare exception leaves the compiler. -/
def Escapes (operation : Operation) : Prop :=
  operation.catalog = "streaming" ∧ operation.operationVersion = "1.0.0" ∧
    InputEscapes lib settings operation.operationContract operation.input

end Escapes

/-! ### Bare exceptions, step by step -/

/-- The computation ends with a bare exception. -/
def Bare {α : Type} (x : Checked α) : Prop := x = .error none

section Steps

variable {α β : Type} {x : Checked α} {f : α → Checked β}

theorem not_bare_ok {a : α} : ¬Bare (.ok a : Checked α) := by simp [Bare]

theorem bare_bind : Bare (x >>= f) ↔ Bare x ∨ ∃ a, x = .ok a ∧ Bare (f a) := by
  cases x with
  | error raised =>
    have hbind : (Except.error raised : Checked α) >>= f = .error raised := rfl
    unfold Bare
    rw [hbind]
    simp
  | ok a =>
    have hbind : (Except.ok a : Checked α) >>= f = f a := rfl
    unfold Bare
    rw [hbind]
    simp

/-- A step that raises no bare exception. -/
theorem bare_next {P : α → Prop} (hx : ¬Bare x) (h : ∀ a, x = .ok a → (Bare (f a) ↔ P a)) :
    Bare (x >>= f) ↔ ∃ a, x = .ok a ∧ P a := by
  rw [bare_bind]
  constructor
  · rintro (hbare | ⟨a, ha, hbare⟩)
    · exact absurd hbare hx
    · exact ⟨a, ha, (h a ha).mp hbare⟩
  · rintro ⟨a, ha, hP⟩
    exact Or.inr ⟨a, ha, (h a ha).mpr hP⟩

/-- A step that raises none, and whose result does not matter to the rest. -/
theorem bare_after {P : Prop} (hx : ¬Bare x) (h : ∀ a, x = .ok a → (Bare (f a) ↔ P)) :
    Bare (x >>= f) ↔ (∃ a, x = .ok a) ∧ P :=
  (bare_next hx h).trans exists_and_right

/-- A step that raises one under a condition, and returns under another. -/
theorem bare_here {B R P : Prop} (hx : Bare x ↔ B) (hok : (∃ a, x = .ok a) ↔ R)
    (h : ∀ a, x = .ok a → (Bare (f a) ↔ P)) : Bare (x >>= f) ↔ B ∨ R ∧ P := by
  rw [bare_bind, hx, ← hok]
  refine or_congr_right (Iff.trans (exists_congr fun a => ?_) exists_and_right)
  exact and_congr_right (h a)

/-- A step that either raises a bare exception or returns. -/
theorem bare_or {B P : Prop} (hx : Bare x ↔ B) (hok : (∃ a, x = .ok a) ↔ ¬B)
    (h : ∀ a, x = .ok a → (Bare (f a) ↔ P)) : Bare (x >>= f) ↔ B ∨ P := by
  rw [bare_here hx hok h]
  tauto

/-- A step that is the last one to raise. -/
theorem bare_last (h : ∀ a, ¬Bare (f a)) : Bare (x >>= f) ↔ Bare x := by
  rw [bare_bind]
  refine or_iff_left ?_
  rintro ⟨a, -, hbare⟩
  exact h a hbare

theorem bare_map {g : α → β} : Bare (g <$> x) ↔ Bare x := by
  cases x with
  | error raised =>
    unfold Bare
    exact ⟨fun h => congrArg _ (Except.error.inj h), fun h => congrArg _ (Except.error.inj h)⟩
  | ok a => exact iff_of_false not_bare_ok not_bare_ok

theorem map_ok {g : α → β} : (∃ b, g <$> x = .ok b) ↔ ∃ a, x = .ok a := by
  cases x <;> simp [Functor.map, Except.map]

theorem bare_require {p : Prop} [Decidable p] {failure : Failure} {g : Unit → Checked β} :
    Bare (Checked.require p failure >>= g) ↔ p ∧ Bare (g ()) := by
  by_cases hp : p
  · have hrequire : Checked.require p failure = .ok () := if_pos hp
    rw [hrequire]
    exact (and_iff_right hp).symm
  · have hrequire : Checked.require p failure = Checked.fail failure := if_neg hp
    rw [hrequire]
    exact iff_of_false (fun h => by simp [Bare, Checked.fail, Bind.bind, Except.bind] at h)
      fun h => hp h.1

theorem not_bare_answering {failure : Failure} : ¬Bare (Checked.answering failure x) := by
  unfold Checked.answering Checked.fail Bare
  cases x with
  | ok a => simp
  | error raised => cases raised <;> simp

theorem not_bare_ofExcept {y : Except Failure α} : ¬Bare (Checked.ofExcept y) := by
  unfold Checked.ofExcept Checked.fail Bare
  cases y <;> simp

/-- A lookup in the settings raises no bare exception. -/
theorem bare_ofExcept {y : Except Failure α} {P : α → Prop}
    (h : ∀ a, y = .ok a → (Bare (f a) ↔ P a)) :
    Bare (Checked.ofExcept y >>= f) ↔ ∃ a, y = .ok a ∧ P a := by
  rw [bare_next not_bare_ofExcept fun a ha => h a (Checked.ofExcept_eq_ok_iff.mp ha)]
  exact exists_congr fun a => and_congr_left fun _ => Checked.ofExcept_eq_ok_iff

/-- A choice, of which only one side is run. -/
theorem Bare.ite {c P : Prop} [Decidable c] {y : Checked α} (h : Bare (if c then x else y))
    (hx : c → Bare x → P) (hy : Bare y → P) : P := by
  split at h
  · next hc => exact hx hc h
  · exact hy h

/-- Of a list, the first item that does not return decides. -/
theorem bare_mapM {g : α → Checked β} {l : List α} :
    Bare (l.mapM g) ↔ ∃ before a after, l = before ++ a :: after ∧
      (∀ b ∈ before, ∃ c, g b = .ok c) ∧ Bare (g a) := by
  induction l with
  | nil =>
    refine iff_of_false not_bare_ok ?_
    rintro ⟨before, a, after, heq, -⟩
    exact absurd heq (by simp)
  | cons first l ih =>
    rw [List.mapM_cons, bare_bind]
    constructor
    · -- Either the first item decides, or it returns and the rest does.
      rintro (hfirst | ⟨c, hc, hrest⟩)
      · exact ⟨[], first, l, rfl, fun b hb => absurd hb List.not_mem_nil, hfirst⟩
      · rw [bare_bind] at hrest
        obtain hrest | ⟨cs, -, hpure⟩ := hrest
        · obtain ⟨before, a, after, rfl, hbefore, ha⟩ := ih.mp hrest
          refine ⟨first :: before, a, after, rfl, fun b hb => ?_, ha⟩
          obtain rfl | hb := List.mem_cons.mp hb
          · exact ⟨c, hc⟩
          · exact hbefore b hb
        · exact absurd hpure not_bare_ok
    · rintro ⟨before, a, after, heq, hbefore, ha⟩
      cases before with
      | nil =>
        obtain ⟨rfl, rfl⟩ := List.cons.inj heq
        exact Or.inl ha
      | cons b before =>
        obtain ⟨rfl, rfl⟩ := List.cons.inj heq
        obtain ⟨c, hc⟩ := hbefore first List.mem_cons_self
        refine Or.inr ⟨c, hc, bare_bind.mpr (Or.inl (ih.mpr ⟨before, a, after, rfl, ?_, ha⟩))⟩
        exact fun b hb => hbefore b (List.mem_cons_of_mem _ hb)

end Steps

/-! ### The helpers -/

section Helpers

variable {lib : CompilerLibraries} {settings : KafkaBindingSettings}
  {input : List (String × Value)} {value : Value} {name : String}

theorem not_bare_fail {α : Type} {failure : Failure} :
    ¬Bare (Checked.fail failure : Checked α) := by
  simp [Bare, Checked.fail]

theorem not_bare_closed {required optional : List String} :
    ¬Bare (closed value name required optional) := not_bare_answering

/-- A required field of a closed input is read. -/
theorem field_of_closed {operationName : String} {required optional : List String}
    (h : closed value operationName required optional = .ok input) (hname : name ∈ required) :
    Value.field input name = .ok (fieldOf input name) := by
  have hclosed := (ensures_closed value operationName required optional input h).2
  have hkey := hclosed.present name hname
  rw [Value.field_eq_ok_iff]
  unfold fieldOf
  cases hlookup : input.lookup name with
  | some found => rfl
  | none =>
    rw [List.lookup_eq_none_iff] at hlookup
    obtain ⟨field, hfield, rfl⟩ := List.mem_map.mp hkey
    exact absurd (hlookup field hfield) (by simp)

theorem not_bare_ref (hfield : Value.field input name = .ok (fieldOf input name)) :
    ¬Bare (ref lib input name) := by
  unfold ref
  rw [hfield]
  exact not_bare_answering

theorem not_bare_stream (hfield : Value.field input name = .ok (fieldOf input name)) :
    ¬Bare (stream lib settings input name) := by
  unfold stream
  rw [bare_bind, not_or]
  refine ⟨not_bare_ref hfield, ?_⟩
  rintro ⟨r, -, hbare⟩
  exact not_bare_ofExcept hbare

theorem not_bare_groupStream
    (hsubscription : Value.field input "subscription" = .ok (fieldOf input "subscription"))
    (hgroup : Value.field input "consumerGroup" = .ok (fieldOf input "consumerGroup")) :
    ¬Bare (groupStream lib settings input) := by
  unfold groupStream
  rw [bare_bind, not_or]
  refine ⟨not_bare_ref hsubscription, ?_⟩
  rintro ⟨r, -, hbare⟩
  rw [bare_bind] at hbare
  obtain hbare | ⟨g, -, hbare⟩ := hbare
  · exact not_bare_ref hgroup hbare
  · exact not_bare_ofExcept hbare

theorem not_bare_integer {minimum : ℕ} {maximum : Option ℕ} :
    ¬Bare (integer value name minimum maximum) := by
  unfold integer
  split
  · exact not_bare_ok
  · exact not_bare_fail

theorem not_bare_boolean : ¬Bare (boolean value name) := by
  unfold boolean
  split
  · exact not_bare_ok
  · exact not_bare_fail

theorem bare_array {β : Type} {f : List Value → Checked β} {P : List Value → Prop}
    (h : ∀ items, value = .seq items → (Bare (f items) ↔ P items)) :
    Bare (array value name >>= f) ↔ ∃ items, value = .seq items ∧ P items := by
  have hbare : ¬Bare (array value name) := by
    unfold array
    split
    · exact not_bare_ok
    · exact not_bare_fail
  rw [bare_next hbare fun items hitems => h items (ensures_array value name items hitems)]
  refine exists_congr fun items => and_congr_left fun _ => ⟨ensures_array value name items, ?_⟩
  rintro rfl
  rfl

theorem bare_boundedString {maximum : ℕ} :
    Bare (value.boundedString maximum) ↔ unbounded maximum value = true := by
  cases value with
  | str text =>
    unfold Value.boundedString unbounded Bare
    cases boundedString text maximum <;> simp
  | null | bool _ | int _ | float _ | bytes _ | seq _ | mapping _ | other =>
    exact iff_of_true rfl rfl

theorem boundedString_ok {maximum : ℕ} :
    (∃ text, value.boundedString maximum = .ok text) ↔ ¬unbounded maximum value = true := by
  cases value with
  | str text =>
    change (∃ t, (if boundedString text maximum = true then Except.ok text else .error none) =
      (.ok t : Checked String)) ↔ ¬(!boundedString text maximum) = true
    cases hbounded : boundedString text maximum <;> simp
  | null | bool _ | int _ | float _ | bytes _ | seq _ | mapping _ | other =>
    exact iff_of_false (by simp [Value.boundedString]) (by simp [unbounded])

theorem bare_optionalString {maximum : ℕ} :
    Bare (value.optionalString maximum) ↔ unboundedOption maximum value = true := by
  cases value with
  | null => exact iff_of_false not_bare_ok (by simp [unboundedOption])
  | bool _ | int _ | float _ | str _ | bytes _ | seq _ | mapping _ | other =>
    exact bare_map.trans bare_boundedString

theorem optionalString_ok {maximum : ℕ} :
    (∃ text, value.optionalString maximum = .ok text) ↔ ¬unboundedOption maximum value = true := by
  cases value with
  | null => exact iff_of_true ⟨none, rfl⟩ (by simp [unboundedOption])
  | bool _ | int _ | float _ | str _ | bytes _ | seq _ | mapping _ | other =>
    exact map_ok.trans boundedString_ok

theorem bare_tokenValue : Bare (tokenValue value name) ↔ unboundedToken value = true := by
  cases value with
  | str text =>
    refine bare_map.trans (bare_boundedString.trans ?_)
    rfl
  | mapping fields => exact iff_of_false not_bare_ok (by simp [unboundedToken])
  | null | bool _ | int _ | float _ | bytes _ | seq _ | other =>
    exact iff_of_false not_bare_fail (by simp [unboundedToken])

theorem tokenValue_ok : (∃ t, tokenValue value name = .ok t) ↔ isToken value = true := by
  cases value with
  | str text =>
    refine map_ok.trans (boundedString_ok.trans ?_)
    simp [unbounded, isToken]
  | mapping fields => exact iff_of_true ⟨_, rfl⟩ rfl
  | null | bool _ | int _ | float _ | bytes _ | seq _ | other =>
    exact iff_of_false (by simp [tokenValue, Checked.fail]) (by simp [isToken])

theorem bare_optionalTokenValue :
    Bare (optionalTokenValue value name) ↔ unboundedToken value = true := by
  cases value with
  | null => exact iff_of_false not_bare_ok (by simp [unboundedToken])
  | bool _ | int _ | float _ | str _ | bytes _ | seq _ | mapping _ | other =>
    exact bare_map.trans bare_tokenValue

theorem optionalTokenValue_ok :
    (∃ t, optionalTokenValue value name = .ok t) ↔ isOptionalToken value = true := by
  cases value with
  | null => exact iff_of_true ⟨none, rfl⟩ rfl
  | bool _ | int _ | float _ | str _ | bytes _ | seq _ | mapping _ | other =>
    exact map_ok.trans tokenValue_ok

/-- The fields of an object are read when every key is a text. -/
theorem isSome_mapM_keys (fields : List (Option String × Value)) :
    (fields.mapM fun f : Option String × Value => f.1.map fun key => (key, f.2)).isSome =
      fields.all fun f => f.1.isSome := by
  induction fields with
  | nil => rfl
  | cons field fields ih =>
    rw [List.mapM_cons, List.all_cons, ← ih]
    cases field.1 with
    | none => rfl
    | some key =>
      cases fields.mapM fun f : Option String × Value => f.1.map fun key => (key, f.2) <;> rfl

theorem asObject_ok : (∃ item, value.asObject = .ok item) ↔ isObject value = true := by
  cases value with
  | mapping fields =>
    unfold Value.asObject isObject
    dsimp only
    rw [← isSome_mapM_keys fields]
    cases fields.mapM fun f : Option String × Value => f.1.map fun key => (key, f.2) <;> simp
  | null | bool _ | int _ | float _ | str _ | bytes _ | seq _ | other =>
    exact iff_of_false (by simp [Value.asObject]) (by simp [isObject])

theorem bare_asObject : Bare value.asObject ↔ isObject value = false := by
  rw [← Bool.not_eq_true, ← asObject_ok]
  -- There is no other way to fail.
  have hfail : ∀ raised, value.asObject ≠ .error (some raised) := by
    intro raised
    unfold Value.asObject
    split
    · split <;> simp
    · simp
  unfold Bare
  generalize value.asObject = outcome at hfail ⊢
  cases outcome with
  | ok item => simp
  | error raised =>
    cases raised with
    | none => simp
    | some raised => exact absurd rfl (hfail raised)

theorem bare_fingerprint : Bare (fingerprint value name) ↔ unbounded 71 value = true := by
  unfold fingerprint
  refine (bare_last fun text hbare => ?_).trans bare_boundedString
  exact not_bare_ok (bare_require.mp hbare).2

theorem not_bare_event {s : PhysicalStream} : ¬Bare (event lib value s) := by
  unfold event
  split
  · rw [bare_next not_bare_answering fun e _ => Iff.trans bare_require
      (and_congr_right fun _ => bare_require)]
    rintro ⟨e, -, -, -, hbare⟩
    exact not_bare_ok hbare
  · exact not_bare_fail

theorem not_bare_events {batch : Bool} {s : PhysicalStream} :
    ¬Bare (events lib value batch s) := by
  unfold events
  cases batch with
  | true =>
    rw [if_pos rfl, bare_array fun items _ => Iff.trans bare_require
      (and_congr_right fun _ => bare_mapM)]
    rintro ⟨items, -, -, before, item, after, -, -, hbare⟩
    exact not_bare_event hbare
  | false =>
    rw [if_neg Bool.false_ne_true]
    exact fun hbare => not_bare_event ((bare_last fun _ => not_bare_ok).mp hbare)

end Helpers

/-! ### The methods -/

section Methods

variable {lib : CompilerLibraries} {settings : KafkaBindingSettings}

/-- A required field is read, and the rest goes on with it. -/
theorem bare_field {β : Type} {input : List (String × Value)} {name : String}
    {f : Value → Checked β} {P : Prop} (hfield : Value.field input name = .ok (fieldOf input name))
    (h : Bare (f (fieldOf input name)) ↔ P) : Bare (Value.field input name >>= f) ↔ P := by
  rw [hfield]
  exact h

theorem bare_publish (value : Value) (batch : Bool) :
    Bare (publish lib settings value batch) ↔ PublishEscapes lib settings value batch := by
  refine bare_next not_bare_closed fun input hclosed => ?_
  refine bare_next (not_bare_stream (field_of_closed hclosed (by simp))) fun s _ => ?_
  refine bare_field (field_of_closed hclosed (by simp)) ?_
  refine bare_next not_bare_events fun es _ => ?_
  exact (bare_last fun _ => not_bare_ok).trans bare_optionalString

theorem bare_subscribe (value : Value) :
    Bare (subscribe lib settings value) ↔ SubscribeEscapes lib settings value := by
  refine bare_next not_bare_closed fun input hclosed => ?_
  refine bare_next (not_bare_stream (field_of_closed hclosed (by simp))) fun s _ => ?_
  refine bare_next (not_bare_ref (field_of_closed hclosed (by simp))) fun r _ => ?_
  refine bare_ofExcept fun sub _ => bare_require.trans (and_congr_right fun _ => ?_)
  refine bare_field (field_of_closed hclosed (by simp)) ?_
  refine (bare_last fun options hbare => ?_).trans bare_asObject
  exact not_bare_ok (bare_require.mp hbare).2

theorem not_bare_poll (value : Value) : ¬Bare (poll lib settings value) := by
  unfold poll
  rw [bare_bind, not_or]
  refine ⟨not_bare_closed, ?_⟩
  rintro ⟨input, hclosed, hbare⟩
  rw [bare_after (not_bare_groupStream (field_of_closed hclosed (by simp))
    (field_of_closed hclosed (by simp))) fun _ _ => bare_field (field_of_closed hclosed (by simp))
    (bare_after not_bare_integer fun _ _ => bare_field (field_of_closed hclosed (by simp))
      (bare_after not_bare_integer fun _ _ => iff_of_false not_bare_ok not_false))] at hbare
  exact hbare.2.2.2

theorem bare_acknowledge (value : Value) :
    Bare (acknowledge lib settings value) ↔ AcknowledgeEscapes lib settings value := by
  refine bare_next not_bare_closed fun input hclosed => ?_
  refine bare_after (not_bare_groupStream (field_of_closed hclosed (by simp))
    (field_of_closed hclosed (by simp))) fun _ _ => ?_
  refine bare_field (field_of_closed hclosed (by simp)) ?_
  exact (bare_last fun _ => not_bare_ok).trans bare_tokenValue

theorem bare_negativeAcknowledge (value : Value) :
    Bare (negativeAcknowledge lib settings value) ↔
      NegativeAcknowledgeEscapes lib settings value := by
  refine bare_next not_bare_closed fun input hclosed => ?_
  refine bare_after (not_bare_groupStream (field_of_closed hclosed (by simp))
    (field_of_closed hclosed (by simp))) fun _ _ => ?_
  refine bare_or bare_optionalString optionalString_ok fun _ _ => ?_
  refine bare_field (field_of_closed hclosed (by simp)) ?_
  refine (bare_last fun delivery hbare => ?_).trans bare_tokenValue
  exact not_bare_integer ((bare_last fun _ => not_bare_ok).mp hbare)

/-- A text of a range, and those after it. -/
theorem bare_bound {β : Type} {input : List (String × Value)} {name : String}
    {f : Option TokenValue → Checked β} {rest : List Value}
    (h : ∀ t, Bare (f t) ↔ BoundEscapes rest) :
    Bare (optionalTokenValue (fieldOf input name) name >>= f) ↔
      BoundEscapes (fieldOf input name :: rest) :=
  bare_here bare_optionalTokenValue optionalTokenValue_ok fun t _ => h t

theorem bare_readRange (value : Value) :
    Bare (readRange lib settings value) ↔ ReadRangeEscapes lib settings value := by
  refine bare_next not_bare_closed fun input hclosed => ?_
  refine bare_after (not_bare_stream (field_of_closed hclosed (by simp))) fun _ _ => ?_
  refine bare_field (field_of_closed hclosed (by simp)) (bare_bound fun _ => ?_)
  refine bare_field (field_of_closed hclosed (by simp)) (bare_bound fun _ => ?_)
  refine bare_field (field_of_closed hclosed (by simp)) (bare_bound fun _ => ?_)
  refine bare_field (field_of_closed hclosed (by simp)) (iff_of_false ?_ not_false)
  exact fun hbare => not_bare_integer ((bare_last fun _ => not_bare_ok).mp hbare)

theorem bare_replay (value : Value) :
    Bare (replay lib settings value) ↔ ReplayEscapes lib settings value := by
  refine bare_next not_bare_closed fun input hclosed => ?_
  refine bare_field (field_of_closed hclosed (by simp)) ?_
  refine bare_require.trans (and_congr_right fun _ => ?_)
  refine bare_after (not_bare_stream (field_of_closed hclosed (by simp))) fun _ _ => ?_
  refine bare_field (field_of_closed hclosed (by simp)) (bare_bound fun _ => bare_bound fun _ => ?_)
  refine bare_field (field_of_closed hclosed (by simp)) (iff_of_false ?_ not_false)
  exact fun hbare => not_bare_integer ((bare_last fun _ => not_bare_ok).mp hbare)

theorem bare_groupPosition (value : Value) :
    Bare (groupPosition lib settings value) ↔ GroupPositionEscapes lib settings value := by
  refine bare_next not_bare_closed fun input hclosed => ?_
  refine bare_after (not_bare_groupStream (field_of_closed hclosed (by simp))
    (field_of_closed hclosed (by simp))) fun _ _ => ?_
  refine bare_field (field_of_closed hclosed (by simp)) ?_
  refine bare_here bare_tokenValue tokenValue_ok fun _ _ => ?_
  refine bare_field (field_of_closed hclosed (by simp)) ?_
  exact (bare_last fun _ => not_bare_ok).trans bare_fingerprint

theorem not_bare_expectedRevision {value : Value} : ¬Bare (expectedRevision value) := by
  unfold expectedRevision
  split
  · exact not_bare_ok
  · rw [bare_map]
    exact not_bare_integer

theorem bare_validateSchema (value : Value) :
    Bare (validateSchema value) ↔ ValidateSchemaEscapes value := by
  refine bare_next not_bare_closed fun input hclosed => ?_
  refine bare_field (field_of_closed hclosed (by simp)) ?_
  refine bare_or bare_asObject (by rw [asObject_ok, Bool.not_eq_false]) fun _ _ => ?_
  refine bare_field (field_of_closed hclosed (by simp)) ?_
  refine bare_or bare_boundedString boundedString_ok fun _ _ => ?_
  refine bare_field (field_of_closed hclosed (by simp)) ?_
  refine bare_or bare_boundedString boundedString_ok fun _ _ => ?_
  refine bare_field (field_of_closed hclosed (by simp)) ?_
  refine (bare_last fun version hbare => ?_).trans bare_boundedString
  -- What is left reports what it refuses.
  rw [bare_after not_bare_expectedRevision fun _ _ =>
    bare_field (field_of_closed hclosed (by simp))
      (bare_after not_bare_boolean fun _ _ => iff_of_false not_bare_ok not_false)] at hbare
  exact hbare.2.2

theorem boundedString_eq_ok {maximum : ℕ} {value : Value} {text : String}
    (h : value.boundedString maximum = .ok text) : value = .str text :=
  (Value.boundedString_eq_ok_iff.mp h).1

theorem bare_validateResource (value : Value) :
    Bare (validateResource lib settings value) ↔ ValidateResourceEscapes lib settings value := by
  refine bare_next not_bare_closed fun input hclosed => ?_
  refine bare_field (field_of_closed hclosed (by simp)) ?_
  refine bare_or bare_asObject (by rw [asObject_ok, Bool.not_eq_false]) fun _ _ => ?_
  refine bare_field (field_of_closed hclosed (by simp)) ?_
  refine bare_or bare_boundedString boundedString_ok fun namespaceName hnamespace => ?_
  refine bare_field (field_of_closed hclosed (by simp)) ?_
  refine bare_or bare_boundedString boundedString_ok fun name hname => ?_
  have hnamespace := boundedString_eq_ok hnamespace
  have hname := boundedString_eq_ok hname
  -- The two texts are those of the input.
  have hrest : Bare (do
      let r ← lib.core.resourceRef "streaming" namespaceName name
      let resource ← Checked.ofExcept (settings.resource r)
      let value ← Value.field input "resourceType"
      let resourceType ← value.boundedString 64
      Checked.require (resourceType = resourceTypeOf resource)
        (definition "Resource kind disagrees with the Binding mapping")
      return { resource, resourceType : ValidateResourceCommand }) ↔
      lib.core.resourceRef "streaming" namespaceName name = .error none ∨
        ∃ r, lib.core.resourceRef "streaming" namespaceName name = .ok r ∧
          (∃ resource, settings.resource r = .ok resource) ∧
            unbounded 64 (fieldOf input "resourceType") = true := by
    rw [bare_bind]
    refine or_congr_right (exists_congr fun r => and_congr_right fun _ => ?_)
    refine (bare_ofExcept fun resource _ => ?_).trans exists_and_right
    refine bare_field (field_of_closed hclosed (by simp)) ?_
    refine (bare_last fun resourceType hbare => ?_).trans bare_boundedString
    exact not_bare_ok (bare_require.mp hbare).2
  refine hrest.trans ⟨fun h => ⟨namespaceName, name, hnamespace, hname, h⟩, ?_⟩
  rintro ⟨namespaceName', name', hnamespace', hname', h⟩
  obtain rfl := Value.str.inj (hnamespace.symm.trans hnamespace')
  obtain rfl := Value.str.inj (hname.symm.trans hname')
  exact h

theorem bare_output (item : Value) :
    Bare (output lib settings item) ↔ OutputEscapes lib settings item := by
  unfold output
  rw [bare_bind, bare_asObject]
  exact or_congr_right (exists_congr fun fields => and_congr_right fun _ => bare_publish _ _)

/-- Of the outputs, the first one that does not compile decides. -/
theorem bare_outputs {β : Type} {f : List PublishCommand → Checked β} (items : List Value)
    (h : ∀ commands, ¬Bare (f commands)) :
    Bare (items.mapM (output lib settings) >>= f) ↔
      ∃ before item after, items = before ++ item :: after ∧
        (∀ b ∈ before, ∃ command, output lib settings b = .ok command) ∧
          OutputEscapes lib settings item := by
  rw [bare_last h, bare_mapM]
  simp only [bare_output]

theorem bare_transactional (value : Value) :
    Bare (transactional lib settings value) ↔ TransactionalEscapes lib settings value := by
  refine bare_require.trans (and_congr_right fun _ => ?_)
  -- the fields are required one by one, in the order in which they are read
  refine bare_next not_bare_closed fun input hclosed => ?_
  refine bare_field (field_of_closed hclosed (by simp)) ?_
  refine bare_field (field_of_closed hclosed (by simp)) ?_
  refine bare_field (field_of_closed hclosed (by simp)) ?_
  refine bare_field (field_of_closed hclosed (by simp)) ?_
  refine bare_after (not_bare_poll (pollInput input)) fun _ _ => ?_
  refine bare_field (field_of_closed hclosed (by simp)) ?_
  refine bare_here bare_tokenValue tokenValue_ok fun _ _ => ?_
  refine bare_field (field_of_closed hclosed (by simp)) ?_
  refine (bare_array fun items _ => bare_require.trans (and_congr_right fun _ =>
    bare_outputs items fun _ => not_bare_ok)).trans ⟨?_, ?_⟩
  · rintro ⟨items, hitems, ⟨-, hlength⟩, before, item, after, rfl, hbefore, hescapes⟩
    exact ⟨before, item, after, hitems, hlength, hbefore, hescapes⟩
  · rintro ⟨before, item, after, hitems, hlength, hbefore, hescapes⟩
    have hpositive : 1 ≤ (before ++ item :: after).length := by
      rw [List.length_append, List.length_cons]
      omega
    exact ⟨_, hitems, ⟨hpositive, hlength⟩, before, item, after, rfl, hbefore, hescapes⟩

/-- **The bare exceptions of a method**, by the contract that it belongs to. -/
theorem bare_dispatch (operation : Operation) (version : operation.operationVersion = "1.0.0") :
    Bare (dispatch lib settings operation) ↔
      InputEscapes lib settings operation.operationContract operation.input := by
  obtain ⟨catalog, contract, operationVersion, value⟩ := operation
  obtain rfl := version
  dsimp only
  constructor
  · intro h
    unfold dispatch at h
    dsimp only at h
    -- One case per contract, in the order in which `dispatch` compares them.
    refine h.ite ?publish fun h => h.ite ?batch fun h => h.ite ?subscribe fun h => h.ite ?poll
      fun h => h.ite ?acknowledge fun h => h.ite ?negative fun h => h.ite ?readRange fun h =>
        h.ite ?replay fun h => h.ite ?position fun h => h.ite ?schema fun h => h.ite ?resource
          fun h => h.ite ?transaction fun h => absurd h not_bare_fail
    all_goals
      rintro rfl h
    case publish => exact .publish ((bare_publish _ _).mp (bare_map.mp h))
    case batch => exact .publishBatch ((bare_publish _ _).mp (bare_map.mp h))
    case subscribe => exact .subscribe ((bare_subscribe _).mp (bare_map.mp h))
    case poll => exact absurd (bare_map.mp h) (not_bare_poll _)
    case acknowledge => exact .acknowledge ((bare_acknowledge _).mp (bare_map.mp h))
    case negative => exact .negativeAcknowledge ((bare_negativeAcknowledge _).mp (bare_map.mp h))
    case readRange => exact .readRange ((bare_readRange _).mp (bare_map.mp h))
    case replay => exact .replay ((bare_replay _).mp (bare_map.mp h))
    case position => exact .groupPosition ((bare_groupPosition _).mp (bare_map.mp h))
    case schema => exact .validateSchema ((bare_validateSchema _).mp (bare_map.mp h))
    case resource => exact .validateResource ((bare_validateResource _).mp (bare_map.mp h))
    case transaction =>
      exact .transactional ((bare_transactional _).mp (bare_map.mp (bare_require.mp h).2))
  · intro h
    cases h with
    | publish h => exact bare_map.mpr ((bare_publish value false).mpr h)
    | publishBatch h => exact bare_map.mpr ((bare_publish value true).mpr h)
    | subscribe h => exact bare_map.mpr ((bare_subscribe value).mpr h)
    | acknowledge h => exact bare_map.mpr ((bare_acknowledge value).mpr h)
    | negativeAcknowledge h => exact bare_map.mpr ((bare_negativeAcknowledge value).mpr h)
    | readRange h => exact bare_map.mpr ((bare_readRange value).mpr h)
    | replay h => exact bare_map.mpr ((bare_replay value).mpr h)
    | groupPosition h => exact bare_map.mpr ((bare_groupPosition value).mpr h)
    | validateSchema h => exact bare_map.mpr ((bare_validateSchema value).mpr h)
    | validateResource h => exact bare_map.mpr ((bare_validateResource value).mpr h)
    | transactional h =>
      exact bare_require.mpr ⟨rfl, bare_map.mpr ((bare_transactional value).mpr h)⟩

theorem bare_compile (operation : Operation) :
    Bare (compile lib settings operation) ↔ Escapes lib settings operation := by
  refine bare_require.trans (and_congr_right fun _ => ?_)
  exact bare_require.trans (and_congr_right fun version => bare_dispatch operation version)

end Methods

/-! ### Everything else is reported -/

/-- The failures that say what is wrong with an Operation or with the Binding. -/
def reportedKinds : List FailureKind :=
  [.invalidStreamingDefinition, .invalidEvent, .streamingCapabilityMismatch,
    .kafkaConfigurationError]

/-- A command, or a failure that says what is wrong. -/
def Reports (x : Checked CompiledCommand) : Prop :=
  (∃ command, x = .ok command) ∨
    ∃ failure, x = .error (some (.failure failure)) ∧ failure.kind ∈ reportedKinds

/-- A bare exception, or a failure that is reported. -/
def Expected (raised : Option Raised) : Prop :=
  raised = none ∨ ∃ failure, raised = some (.failure failure) ∧ failure.kind ∈ reportedKinds

/-- What the libraries raise: `TypeError`, `ValueError`, or a failure of the contract. -/
structure Documented (lib : CompilerLibraries) : Prop where
  parseRef : ∀ value, Raises (lib.core.parseRef value) Expected
  resourceRef : ∀ catalog namespaceName name,
    Raises (lib.core.resourceRef catalog namespaceName name) Expected
  eventFromMapping : ∀ fields, Raises (lib.eventFromMapping fields) Expected

section Reports

variable {α : Type} {x : Checked α} {failure : Failure}

theorem expected_none : Expected none := Or.inl rfl

theorem definition_reported : .invalidStreamingDefinition ∈ reportedKinds := by decide

theorem event_reported : .invalidEvent ∈ reportedKinds := by decide

theorem capability_reported : .streamingCapabilityMismatch ∈ reportedKinds := by decide

theorem raises_fail (h : failure.kind ∈ reportedKinds) :
    Raises (Checked.fail failure : Checked α) Expected :=
  .error (Or.inr ⟨failure, rfl, h⟩)

theorem raises_require {p : Prop} [Decidable p] (h : failure.kind ∈ reportedKinds) :
    Raises (Checked.require p failure) Expected :=
  .ite (fun _ => .pure) fun _ => raises_fail h

theorem raises_answering (hx : Raises x Expected) (h : failure.kind ∈ reportedKinds) :
    Raises (Checked.answering failure x) Expected := by
  unfold Checked.answering
  cases x with
  | ok a => exact .pure
  | error raised =>
    cases raised with
    | none => exact raises_fail h
    | some raised => exact .error (hx _ rfl)

theorem raises_ofExcept {y : Except Failure α}
    (h : Raises y fun failure => failure.kind = .kafkaConfigurationError) :
    Raises (Checked.ofExcept y) Expected := by
  cases y with
  | ok a => exact .pure
  | error failure => exact raises_fail (by rw [h failure rfl]; decide)

theorem raises_resource (settings : KafkaBindingSettings) (r : ResourceRef) :
    Raises (settings.resource r) fun failure => failure.kind = .kafkaConfigurationError := by
  unfold KafkaBindingSettings.resource
  cases settings.resources.get? r with
  | some resource => exact .pure
  | none => exact .error rfl

theorem raises_settingsStream (settings : KafkaBindingSettings) (r : ResourceRef) :
    Raises (settings.stream r) fun failure => failure.kind = .kafkaConfigurationError := by
  have hresource := raises_resource settings r
  unfold KafkaBindingSettings.stream
  split
  · exact .pure
  · exact .error rfl
  · next failure hfailure => exact .error (hresource failure hfailure)

theorem raises_subscription (settings : KafkaBindingSettings) (r : ResourceRef) :
    Raises (settings.subscription r) fun failure => failure.kind = .kafkaConfigurationError := by
  have hresource := raises_resource settings r
  unfold KafkaBindingSettings.subscription
  split
  · exact .pure
  · exact .error rfl
  · next failure hfailure => exact .error (hresource failure hfailure)

theorem raises_consumerGroup (settings : KafkaBindingSettings) (r : ResourceRef) :
    Raises (settings.consumerGroup r) fun failure => failure.kind = .kafkaConfigurationError := by
  have hresource := raises_resource settings r
  unfold KafkaBindingSettings.consumerGroup
  split
  · exact .pure
  · exact .error rfl
  · next failure hfailure => exact .error (hresource failure hfailure)

theorem raises_settingsGroupStream (settings : KafkaBindingSettings) (r r' : ResourceRef) :
    Raises (settings.groupStream r r') fun failure => failure.kind = .kafkaConfigurationError := by
  refine .bind (raises_subscription settings r) fun subscription _ => ?_
  refine .bind (raises_consumerGroup settings r') fun group _ => ?_
  refine .ite (fun _ => .bind (.error rfl) fun _ _ => ?_) fun _ => ?_
  all_goals exact .bind (raises_settingsStream settings _) fun s _ => .pure

variable {lib : CompilerLibraries} {settings : KafkaBindingSettings} {value : Value} {name : String}
  {input : List (String × Value)}

theorem raises_field : Raises (Value.field input name) Expected := by
  unfold Value.field
  cases input.lookup name with
  | some value => exact .pure
  | none => exact .error expected_none

theorem raises_asObject : Raises value.asObject Expected := by
  unfold Value.asObject
  split
  · split
    · exact .pure
    · exact .error expected_none
  · exact .error expected_none

theorem raises_boundedString {maximum : ℕ} : Raises (value.boundedString maximum) Expected := by
  unfold Value.boundedString
  split
  · exact .ite (fun _ => .pure) fun _ => .error expected_none
  · exact .error expected_none

theorem raises_optionalString {maximum : ℕ} : Raises (value.optionalString maximum) Expected := by
  unfold Value.optionalString
  split
  · exact .pure
  · exact .map raises_boundedString

theorem raises_closed {required optional : List String} :
    Raises (closed value name required optional) Expected := by
  refine raises_answering (.bind raises_asObject fun item _ => ?_) definition_reported
  exact .ite (fun _ => .pure) fun _ => .error expected_none

theorem raises_tokenValue : Raises (tokenValue value name) Expected := by
  unfold tokenValue
  split
  · exact .map raises_boundedString
  · exact .pure
  · exact raises_fail definition_reported

theorem raises_optionalTokenValue : Raises (optionalTokenValue value name) Expected := by
  unfold optionalTokenValue
  split
  · exact .pure
  · exact .map raises_tokenValue

theorem raises_integer {minimum : ℕ} {maximum : Option ℕ} :
    Raises (integer value name minimum maximum) Expected := by
  unfold integer
  split
  · exact .pure
  · exact raises_fail definition_reported

theorem raises_array : Raises (array value name) Expected := by
  unfold array
  split
  · exact .pure
  · exact raises_fail definition_reported

section Lookups

variable (documented : Documented lib)
include documented

theorem raises_ref : Raises (ref lib input name) Expected := by
  refine .bind raises_field fun value _ => raises_answering ?_ definition_reported
  have hparse : Raises (do
      let selected ← lib.core.parseRef value
      if selected.catalog ≠ "streaming" then .error none else return selected : Checked _)
        Expected :=
    .bind (documented.parseRef value) fun selected _ =>
      .ite (fun _ => .error expected_none) fun _ => .pure
  split
  · exact hparse
  · exact hparse
  · exact .error expected_none

theorem raises_stream : Raises (stream lib settings input name) Expected :=
  .bind (raises_ref documented) fun r _ => raises_ofExcept (raises_settingsStream settings r)

theorem raises_groupStream : Raises (groupStream lib settings input) Expected := by
  refine .bind (raises_ref documented) fun r _ => .bind (raises_ref documented) fun r' _ => ?_
  exact raises_ofExcept (raises_settingsGroupStream settings r r')

theorem raises_event {s : PhysicalStream} : Raises (event lib value s) Expected := by
  unfold event
  split
  · refine .bind (raises_answering (documented.eventFromMapping _) event_reported) fun e _ => ?_
    refine .bind (raises_require event_reported) fun _ _ => ?_
    exact .bind (raises_require event_reported) fun _ _ => .pure
  · exact raises_fail event_reported

theorem raises_events {batch : Bool} {s : PhysicalStream} :
    Raises (events lib value batch s) Expected := by
  refine .ite (fun _ => ?_) fun _ => .bind (raises_event documented) fun e _ => .pure
  refine .bind raises_array fun items _ => .bind (raises_require definition_reported) fun _ _ => ?_
  exact .mapM fun item _ => raises_event documented

theorem raises_publish {batch : Bool} : Raises (publish lib settings value batch) Expected := by
  refine .bind raises_closed fun input _ => .bind (raises_stream documented) fun s _ => ?_
  refine .bind raises_field fun _ _ => .bind (raises_events documented) fun es _ => ?_
  exact .bind raises_optionalString fun key _ => .pure

theorem raises_subscribe : Raises (subscribe lib settings value) Expected := by
  refine .bind raises_closed fun input _ => .bind (raises_stream documented) fun s _ => ?_
  refine .bind (raises_ref documented) fun r _ => ?_
  refine .bind (raises_ofExcept (raises_subscription settings r)) fun sub _ => ?_
  refine .bind (raises_require definition_reported) fun _ _ => .bind raises_field fun _ _ => ?_
  refine .bind raises_asObject fun options _ => ?_
  exact .bind (raises_require definition_reported) fun _ _ => .pure

theorem raises_poll : Raises (poll lib settings value) Expected := by
  refine .bind raises_closed fun input _ => .bind (raises_groupStream documented) fun g _ => ?_
  refine .bind raises_field fun _ _ => .bind raises_integer fun limit _ => ?_
  exact .bind raises_field fun _ _ => .bind raises_integer fun wait _ => .pure

theorem raises_acknowledge : Raises (acknowledge lib settings value) Expected := by
  refine .bind raises_closed fun input _ => .bind (raises_groupStream documented) fun g _ => ?_
  exact .bind raises_field fun _ _ => .bind raises_tokenValue fun delivery _ => .pure

theorem raises_negativeAcknowledge : Raises (negativeAcknowledge lib settings value) Expected := by
  refine .bind raises_closed fun input _ => .bind (raises_groupStream documented) fun g _ => ?_
  refine .bind raises_optionalString fun classification _ => .bind raises_field fun _ _ => ?_
  exact .bind raises_tokenValue fun delivery _ => .bind raises_integer fun retryAfter _ => .pure

theorem raises_readRange : Raises (readRange lib settings value) Expected := by
  refine .bind raises_closed fun input _ => .bind (raises_stream documented) fun s _ => ?_
  refine .bind raises_field fun _ _ => .bind raises_optionalTokenValue fun start _ => ?_
  refine .bind raises_field fun _ _ => .bind raises_optionalTokenValue fun stop _ => ?_
  refine .bind raises_field fun _ _ => .bind raises_optionalTokenValue fun cursor _ => ?_
  exact .bind raises_field fun _ _ => .bind raises_integer fun limit _ => .pure

theorem raises_replay : Raises (replay lib settings value) Expected := by
  refine .bind raises_closed fun input _ => .bind raises_field fun _ _ => ?_
  refine .bind (raises_require definition_reported) fun _ _ => ?_
  refine .bind (raises_stream documented) fun s _ => ?_
  refine .bind raises_field fun _ _ => .bind raises_optionalTokenValue fun start _ => ?_
  refine .bind raises_optionalTokenValue fun stop _ => .bind raises_field fun _ _ => ?_
  exact .bind raises_integer fun limit _ => .pure

theorem raises_groupPosition : Raises (groupPosition lib settings value) Expected := by
  refine .bind raises_closed fun input _ => .bind (raises_groupStream documented) fun g _ => ?_
  refine .bind raises_field fun _ _ => .bind raises_tokenValue fun position _ => ?_
  refine .bind raises_field fun _ _ => .bind (.bind raises_boundedString fun text _ => ?_)
    fun expected _ => .pure
  exact .bind (raises_require definition_reported) fun _ _ => .pure

theorem raises_validateResource : Raises (validateResource lib settings value) Expected := by
  refine .bind raises_closed fun input _ => .bind raises_field fun _ _ => ?_
  refine .bind raises_asObject fun options _ => .bind raises_field fun _ _ => ?_
  refine .bind raises_boundedString fun namespaceName _ => .bind raises_field fun _ _ => ?_
  refine .bind raises_boundedString fun name _ => ?_
  refine .bind (documented.resourceRef _ _ _) fun r _ => ?_
  refine .bind (raises_ofExcept (raises_resource settings r)) fun resource _ => ?_
  refine .bind raises_field fun _ _ => .bind raises_boundedString fun resourceType _ => ?_
  exact .bind (raises_require definition_reported) fun _ _ => .pure

theorem raises_transactional : Raises (transactional lib settings value) Expected := by
  refine .bind (raises_require capability_reported) fun _ _ => .bind raises_closed fun input _ => ?_
  refine .bind raises_field fun _ _ => .bind raises_field fun _ _ => ?_
  refine .bind raises_field fun _ _ => .bind raises_field fun _ _ => ?_
  refine .bind (raises_poll documented) fun command _ => .bind raises_field fun _ _ => ?_
  refine .bind raises_tokenValue fun delivery _ => .bind raises_field fun _ _ => ?_
  refine .bind raises_array fun items _ => .bind (raises_require definition_reported) fun _ _ => ?_
  refine .bind (.mapM fun item _ => ?_) fun outputs _ => .pure
  exact .bind raises_asObject fun fields _ => raises_publish documented

end Lookups

theorem raises_validateSchema : Raises (validateSchema value) Expected := by
  have hrevision : ∀ value, Raises (expectedRevision value) Expected := by
    intro value
    unfold expectedRevision
    split
    · exact .pure
    · exact .map raises_integer
  have hboolean : ∀ value, Raises (boolean value "allowBreaking") Expected := by
    intro value
    unfold boolean
    split
    · exact .pure
    · exact raises_fail definition_reported
  refine .bind raises_closed fun input _ => .bind raises_field fun _ _ => ?_
  refine .bind raises_asObject fun _ _ => .bind raises_field fun _ _ => ?_
  refine .bind raises_boundedString fun _ _ => .bind raises_field fun _ _ => ?_
  refine .bind raises_boundedString fun _ _ => .bind raises_field fun _ _ => ?_
  refine .bind raises_boundedString fun _ _ => .bind (hrevision _) fun _ _ => ?_
  exact .bind raises_field fun _ _ => .bind (hboolean _) fun _ _ => .pure

theorem raises_compile (documented : Documented lib) (operation : Operation) :
    Raises (compile lib settings operation) Expected := by
  refine .bind (raises_require capability_reported) fun _ _ => ?_
  refine .bind (raises_require capability_reported) fun _ _ => ?_
  refine .ite (fun _ => .map (raises_publish documented)) fun _ => ?_
  refine .ite (fun _ => .map (raises_publish documented)) fun _ => ?_
  refine .ite (fun _ => .map (raises_subscribe documented)) fun _ => ?_
  refine .ite (fun _ => .map (raises_poll documented)) fun _ => ?_
  refine .ite (fun _ => .map (raises_acknowledge documented)) fun _ => ?_
  refine .ite (fun _ => .map (raises_negativeAcknowledge documented)) fun _ => ?_
  refine .ite (fun _ => .map (raises_readRange documented)) fun _ => ?_
  refine .ite (fun _ => .map (raises_replay documented)) fun _ => ?_
  refine .ite (fun _ => .map (raises_groupPosition documented)) fun _ => ?_
  refine .ite (fun _ => .map raises_validateSchema) fun _ => ?_
  refine .ite (fun _ => .map (raises_validateResource documented)) fun _ => ?_
  refine .ite (fun _ => .bind (raises_require capability_reported) fun _ _ => ?_) fun _ => ?_
  · exact .map (raises_transactional documented)
  · exact raises_fail capability_reported

/-- **What is reported.** Let the libraries raise what they document. An Operation becomes a
command or one of the four failures exactly when none of its fields escapes. -/
theorem compile_reports_iff (documented : Documented lib) (operation : Operation) :
    Reports (compile lib settings operation) ↔ ¬Escapes lib settings operation := by
  rw [← bare_compile]
  have hraises := @raises_compile lib settings documented operation
  unfold Bare Reports
  generalize compile lib settings operation = outcome at hraises ⊢
  cases outcome with
  | ok command => exact iff_of_true (Or.inl ⟨command, rfl⟩) (by simp)
  | error raised =>
    obtain rfl | ⟨failure, rfl, hkind⟩ := hraises raised rfl
    · exact iff_of_false (by simp) (not_not_intro rfl)
    · exact iff_of_true (Or.inr ⟨failure, rfl, hkind⟩) (by simp)

end Reports

namespace Sample

theorem raises_parseRef (value : Value) : Raises (parseRef value) (· = none) := by
  unfold parseRef
  split
  · split
    · exact .pure
    · exact .error rfl
  · exact .pure
  · exact .error rfl

theorem raises_parseSchemaRef (fields : List (Option String × Value)) :
    Raises (parseSchemaRef fields) (· = none) := by
  unfold parseSchemaRef
  split
  · exact .pure
  · exact .error rfl

theorem raises_eventFromMapping (fields : List (Option String × Value)) :
    Raises (eventFromMapping fields) (· = none) := by
  unfold eventFromMapping
  split
  · exact .bind (raises_parseRef _) fun _ _ => .bind (raises_parseSchemaRef _) fun _ _ => .pure
  · exact .error rfl

theorem documented_compiler : Documented compiler where
  parseRef value := (raises_parseRef value).mono fun _ => Or.inl
  resourceRef _ _ _ := .pure
  eventFromMapping fields := (raises_eventFromMapping fields).mono fun _ => Or.inl

/-- Publish a schema with this definition. -/
def publishSchema (definition : Value) : Operation where
  catalog := "streaming"
  operationContract := "meridian.streaming.publish-schema"
  operationVersion := "1.0.0"
  input := .object
    [("namespace", .str "a"), ("name", .str "v"), ("version", .str "1"),
      ("definition", definition), ("allowBreaking", .bool false)]

theorem compile_publishSchema_object :
    (compile compiler { resources := .empty } (publishSchema (.object []))).toBool = true := by
  decide +kernel

end Sample

theorem object_definition_is_reported :
    ¬Escapes Sample.compiler { resources := .empty } (Sample.publishSchema (.object [])) := by
  obtain ⟨command, hcompiles⟩ := exists_ok_of_toBool Sample.compile_publishSchema_object
  exact (compile_reports_iff Sample.documented_compiler _).mp (Or.inl ⟨command, hcompiles⟩)

/-- A definition that is a text ends in the `TypeError` of `as_object`. -/
theorem text_definition_escapes :
    Documented Sample.compiler ∧
      ¬Reports (compile Sample.compiler { resources := .empty }
        (Sample.publishSchema (.str "text"))) := by
  refine ⟨Sample.documented_compiler, ?_⟩
  show ¬Reports (.error none)
  rintro (⟨command, h⟩ | ⟨failure, h, -⟩)
  · exact nomatch h
  · exact nomatch h

end KafkaOperationCompiler

end MeridianKafka
