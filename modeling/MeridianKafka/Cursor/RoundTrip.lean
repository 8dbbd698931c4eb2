import MeridianKafka.Cursor.Codec
import MeridianKafka.Framework.JsonSize

/-!
# Tokens give back what they were written for

A token that the codec has written is read back to the coordinates that went into it, by any
codec whose ring still holds the signing key, until it expires; from then on it is refused as
expired. For any other scope, that is another Resource, group, topic or kind, it is refused
as invalid (`tokens_round_trip`).

The way there follows the token. The ring splits the text where `encode` has joined it, and
gives the bytes of the payload back (`verify_eq`); the payload is the object that was
written, with its keys in order; and each field of it is read back.
-/

namespace MeridianKafka

open Framework TokenPayload

/-! ### Texts -/

theorem toList_b64 (bytes : List UInt8) : (b64 bytes).toList = Base64.encode bytes :=
  String.toList_ofList

theorem b64_ne_empty {bytes : List UInt8} (h : bytes ≠ []) : b64 bytes ≠ "" := by
  intro heq
  have hlength := Base64.length_le_encode bytes
  rw [← toList_b64, heq] at hlength
  exact h (List.eq_nil_of_length_eq_zero (Nat.le_zero.mp hlength))

theorem unb64_b64 {bytes : List UInt8} (h : bytes ≠ []) : unb64 (b64 bytes) = some bytes := by
  unfold unb64
  rw [toList_b64, Base64.decode_encode]
  exact if_pos ⟨b64_ne_empty h, rfl⟩

theorem utf8ByteSize_eq (s : String) : s.utf8ByteSize = (s.toList.map Char.utf8Size).sum := by
  rw [← String.size_toByteArray, ← String.utf8Encode_toList]
  simp only [List.utf8Encode, List.size_toByteArray, List.length_flatMap,
    String.length_utf8EncodeChar]

theorem length_le_utf8ByteSize (s : String) : s.toList.length ≤ s.utf8ByteSize := by
  rw [utf8ByteSize_eq]
  induction s.toList with
  | nil => exact Nat.le_refl _
  | cons c l ih =>
    have hc := c.utf8Size_pos
    rw [List.map_cons, List.sum_cons, List.length_cons]
    omega

/-- An ASCII text has as many bytes as characters. -/
theorem utf8ByteSize_of_ascii {s : String} (h : ∀ c ∈ s.toList, c.toNat < 128) :
    s.utf8ByteSize = s.toList.length :=
  (utf8ByteSize_eq s).trans (Framework.Json.utf8Length_of_ascii h)

theorem utf8ByteSize_b64 (bytes : List UInt8) :
    (b64 bytes).utf8ByteSize = (4 * bytes.length + 2) / 3 := by
  rw [utf8ByteSize_of_ascii, toList_b64, Base64.length_encode]
  intro c hc
  rw [toList_b64] at hc
  exact Base64.toNat_lt_of_mem_encode hc

theorem TokenKey.dot_notMem (key : TokenKey) : '.' ∉ key.keyId.toList := by
  intro hdot
  have hsafe := key.safe
  rw [tokenSafe, Bool.and_eq_true, List.all_eq_true] at hsafe
  have hfalse := hsafe.2 '.' hdot
  simp at hfalse

theorem TokenKey.ascii_of_mem (key : TokenKey) {c : Char} (hc : c ∈ key.keyId.toList) :
    c.toNat < 128 := by
  have hsafe := key.safe
  rw [tokenSafe, Bool.and_eq_true, List.all_eq_true] at hsafe
  have hsafe := hsafe.2 c hc
  unfold Char.isAlphanum Char.isAlpha Char.isUpper Char.isLower Char.isDigit at hsafe
  simp only [Bool.or_eq_true, decide_eq_true_eq, Bool.and_eq_true, UInt32.le_iff_toNat_le] at hsafe
  rcases hsafe with (hletter | rfl) | rfl
  · simp at hletter
    omega
  · decide
  · decide

theorem TokenKey.utf8ByteSize_keyId_le (key : TokenKey) : key.keyId.utf8ByteSize ≤ 64 := by
  have hbounded := key.bounded
  rw [boundedString, Bool.and_eq_true, Bool.and_eq_true] at hbounded
  exact of_decide_eq_true hbounded.1.2

/-- What is signed is ASCII. -/
theorem isSome_ascii_signedText (key : TokenKey) (bytes : List UInt8) :
    (ascii (TokenCodec.signedText key.keyId (b64 bytes))).isSome = true := by
  have hall : ∀ c ∈ (TokenCodec.signedText key.keyId (b64 bytes)).toList, c.toNat < 128 := by
    intro c hc
    simp only [TokenCodec.signedText, String.toList_append, List.mem_append] at hc
    rcases hc with (((hc | hc) | hc) | hc) | hc
    · exact (by simp [tokenFormat] : ∀ c ∈ tokenFormat.toList, c.toNat < 128) c hc
    · exact (by simp : ∀ c ∈ ".".toList, c.toNat < 128) c hc
    · exact key.ascii_of_mem hc
    · exact (by simp : ∀ c ∈ ".".toList, c.toNat < 128) c hc
    · rw [toList_b64] at hc
      exact Base64.toNat_lt_of_mem_encode hc
  unfold ascii
  rw [if_pos (List.all_eq_true.mpr fun c hc => decide_eq_true (hall c hc))]
  rfl

/-- The four parts of a token. -/
theorem splitOn_token {keyId body signature : String} (hkeyId : '.' ∉ keyId.toList)
    (hbody : '.' ∉ body.toList) (hsignature : '.' ∉ signature.toList) :
    ((TokenCodec.signedText keyId body ++ "." ++ signature).toList.splitOn '.').map String.ofList =
      [tokenFormat, keyId, body, signature] := by
  have htoList : (TokenCodec.signedText keyId body ++ "." ++ signature).toList =
      tokenFormat.toList ++ '.' :: (keyId.toList ++ '.' :: (body.toList ++ '.' ::
        signature.toList)) := by
    simp [TokenCodec.signedText, String.toList_append]
  rw [htoList, List.splitOn_append_cons_self_of_not_mem (by decide +kernel),
    List.splitOn_append_cons_self_of_not_mem hkeyId,
    List.splitOn_append_cons_self_of_not_mem hbody, List.splitOn_eq_singleton hsignature]
  simp only [List.map_cons, List.map_nil, String.ofList_toList]

/-! ### The key ring -/

namespace TokenCodec

variable {lib : CodecLibraries} {codec : TokenCodec} {fields : List (String × Json)}
  {token : String} {bytes : List UInt8}

/-- What a token consists of. -/
theorem encode_ok (encoded : codec.encode lib fields = .ok token) :
    ∃ bytes message, lib.json.canonicalJsonBytes (.obj fields) = .ok bytes ∧
      ascii (signedText codec.active.keyId (b64 bytes)) = some message ∧
      token = signedText codec.active.keyId (b64 bytes) ++ "." ++
        b64 (lib.sha256.hmac codec.active.key message).toList ∧
      token.utf8ByteSize ≤ maxTokenBytes := by
  obtain ⟨bytes, hbytes, encoded⟩ := exists_of_bind_eq_ok encoded
  dsimp only at encoded
  split at encoded
  · simp [throw, throwThe, MonadExceptOf.throw] at encoded
  next message hmessage =>
  split at encoded
  · simp [throw, throwThe, MonadExceptOf.throw] at encoded
  next hsize =>
  obtain rfl := Except.ok.inj encoded
  exact ⟨bytes, message, hbytes, hmessage, rfl, Nat.le_of_not_lt hsize⟩

/-- **The room in a token**: a payload is signed exactly when its base64 text fits beside the
key id and the signature. -/
theorem encode_eq (codec : TokenCodec)
    (canonical : lib.json.canonicalJsonBytes (.obj fields) = .ok bytes) :
    ∃ token, codec.encode lib fields =
      if 4 * bytes.length ≤ 3 * (4047 - codec.active.keyId.utf8ByteSize) then .ok token
      else .error .other := by
  obtain ⟨message, hmessage⟩ :=
    Option.isSome_iff_exists.mp (isSome_ascii_signedText codec.active bytes)
  have hkeyId := codec.active.utf8ByteSize_keyId_le
  have hencode : codec.encode lib fields =
      if (signedText codec.active.keyId (b64 bytes) ++ "." ++
          b64 (lib.sha256.hmac codec.active.key message).toList).utf8ByteSize > maxTokenBytes then
        .error .other
      else .ok (signedText codec.active.keyId (b64 bytes) ++ "." ++
        b64 (lib.sha256.hmac codec.active.key message).toList) := by
    unfold encode
    rw [canonical]
    refine (pure_bind bytes _).trans ?_
    dsimp only
    rw [hmessage]
    rfl
  -- 43 characters of signature, and six of the format and the dots
  have hsize : (signedText codec.active.keyId (b64 bytes) ++ "." ++
      b64 (lib.sha256.hmac codec.active.key message).toList).utf8ByteSize =
        codec.active.keyId.utf8ByteSize + 49 + (4 * bytes.length + 2) / 3 := by
    have hformat : tokenFormat.utf8ByteSize = 3 := by decide
    have hdot : ".".utf8ByteSize = 1 := by decide
    simp only [signedText, String.utf8ByteSize_append, utf8ByteSize_b64, Vector.length_toList,
      hformat, hdot]
    omega
  refine ⟨signedText codec.active.keyId (b64 bytes) ++ "." ++
    b64 (lib.sha256.hmac codec.active.key message).toList, ?_⟩
  rw [hencode, hsize]
  by_cases hroom : 4 * bytes.length ≤ 3 * (4047 - codec.active.keyId.utf8ByteSize)
  · rw [if_pos hroom, if_neg]
    change ¬_ > 4096
    omega
  · rw [if_neg hroom, if_pos]
    change _ > 4096
    omega

/-- A payload of up to 2900 bytes fits under any key id. -/
theorem exists_encode (codec : TokenCodec)
    (canonical : lib.json.canonicalJsonBytes (.obj fields) = .ok bytes)
    (small : bytes.length ≤ 2900) : ∃ token, codec.encode lib fields = .ok token := by
  have hkeyId := codec.active.utf8ByteSize_keyId_le
  obtain ⟨token, htoken⟩ := encode_eq codec canonical
  rw [if_pos (by omega)] at htoken
  exact ⟨token, htoken⟩

/-- **Any ring** either has no use for a token, or finds the bytes in it that were signed. It
finds them when it has the key that signed. -/
theorem verify_eq (inverts : lib.json.Inverts) (encoded : codec.encode lib fields = .ok token)
    (canonical : lib.json.canonicalJsonBytes (.obj fields) = .ok bytes) (later : TokenCodec) :
    later.verify lib token = some bytes ∨
      later.verify lib token = none ∧
        ∀ key, later.keys.get? codec.active.keyId = some key → key.key ≠ codec.active.key := by
  obtain ⟨bytes', message, hbytes, hmessage, rfl, hsize⟩ := encode_ok encoded
  obtain rfl := Except.ok.inj (canonical.symm.trans hbytes)
  have hne := inverts.canonicalJsonBytes_ne_nil hbytes
  have hsignature : ∀ key, unb64 (b64 (lib.sha256.hmac key message).toList) =
      some (lib.sha256.hmac key message).toList := by
    intro key
    refine unb64_b64 fun hnil => ?_
    have hlength := congrArg List.length hnil
    rw [Vector.length_toList] at hlength
    simp at hlength
  have hnonempty : ¬(signedText codec.active.keyId (b64 bytes) ++ "." ++
      b64 (lib.sha256.hmac codec.active.key message).toList = "" ∨
      (signedText codec.active.keyId (b64 bytes) ++ "." ++
        b64 (lib.sha256.hmac codec.active.key message).toList).utf8ByteSize > maxTokenBytes) := by
    rintro (hempty | hlarge)
    · have htoList := congrArg String.toList hempty
      simp [String.toList_append] at htoList
    · omega
  -- The payload is no longer than the token.
  have hdecoded : ¬bytes.length > maxTokenBytes := by
    have hbody := length_le_utf8ByteSize (b64 bytes)
    have hlength := Base64.length_le_encode bytes
    rw [toList_b64] at hbody
    simp only [signedText, String.utf8ByteSize_append] at hsize
    omega
  have hverify : later.verify lib (signedText codec.active.keyId (b64 bytes) ++ "." ++
      b64 (lib.sha256.hmac codec.active.key message).toList) =
      (later.keys.get? codec.active.keyId).bind fun key =>
        if (lib.sha256.hmac key.key message).toList ≠
            (lib.sha256.hmac codec.active.key message).toList then none else some bytes := by
    unfold verify
    rw [if_neg hnonempty, splitOn_token codec.active.dot_notMem
      (by rw [toList_b64]; exact Base64.dot_notMem_encode _)
      (by rw [toList_b64]; exact Base64.dot_notMem_encode _)]
    dsimp only
    rw [if_neg (not_not_intro rfl), hmessage, hsignature, unb64_b64 hne]
    cases later.keys.get? codec.active.keyId with
    | none => rfl
    | some key =>
      change (if (lib.sha256.hmac key.key message).toList ≠ _ then none
        else if bytes.length > maxTokenBytes then none else some bytes) = _
      rw [if_neg hdecoded]
      rfl
  rw [hverify]
  cases hkey : later.keys.get? codec.active.keyId with
  | none => exact Or.inr ⟨rfl, fun key hkey => by simp at hkey⟩
  | some key =>
    rw [Option.bind_some]
    split_ifs with hdiffers
    · refine Or.inr ⟨rfl, ?_⟩
      intro key' hkey' heq
      obtain rfl := Option.some.inj hkey'
      exact hdiffers (by rw [heq])
    · exact Or.inl rfl

/-- A ring that has the key reads the payload. -/
theorem decode_eq (inverts : lib.json.Inverts) (encoded : codec.encode lib fields = .ok token)
    {later : TokenCodec} {key : TokenKey} (found : later.keys.get? codec.active.keyId = some key)
    (same : key.key = codec.active.key) (nowMs : ℕ) (expected : TokenType) :
    later.decode lib nowMs token expected =
      checkItem nowMs expected (.obj (Json.sortFields fields)) := by
  obtain ⟨bytes, -, hbytes, -⟩ := encode_ok encoded
  have hverify : later.verify lib token = some bytes := by
    rcases verify_eq inverts encoded hbytes later with hsome | ⟨-, hother⟩
    · exact hsome
    · exact absurd same (hother key found)
  unfold decode
  rw [hverify]
  dsimp only
  rw [inverts.loads_canonicalJsonBytes hbytes, Json.sorted_obj]

/-- A ring with unique ids finds each of its keys. -/
theorem get?_of_create {keys : List TokenKey} {later : TokenCodec}
    (created : create keys = .ok later) (unique : (keys.map TokenKey.keyId).Nodup)
    {key : TokenKey} (hkey : key ∈ keys) : later.keys.get? key.keyId = some key := by
  unfold create at created
  split at created
  · obtain rfl := Except.ok.inj created
    have hnodup : ((keys.map fun key => (key.keyId, key)).map Prod.fst).Nodup := by
      rw [List.map_map]
      exact unique
    change (Dict.ofList _).get? key.keyId = some key
    rw [Dict.get?_ofList hnodup]
    exact (Dict.mem_entries_iff (d := ⟨_, hnodup⟩)).mp (List.mem_map.mpr ⟨key, hkey, rfl⟩)
  · simp at created

end TokenCodec

/-! ### The fields of a payload -/

theorem TokenType.str_inj {type type' : TokenType} (h : type.str = type'.str) : type = type' := by
  cases type <;> cases type' <;> first | rfl | exact absurd h (by decide)

theorem fieldIs_of_lookup {fields : List (String × Json)} {key value : String}
    (h : fields.lookup key = some (.str value)) (text : String) :
    fieldIs fields key text = true ↔ value = text := by
  unfold fieldIs
  rw [h]
  exact decide_eq_true_iff

theorem closedObject_sortFields (required optional : List String) (fields : List (String × Json)) :
    closedObject required optional (.obj (Json.sortFields fields)) =
      if closedFields required optional (fields.map Prod.fst) then some (Json.sortFields fields)
      else none := by
  have hmem : ∀ field, field ∈ (Json.sortFields fields).map Prod.fst ↔
      field ∈ fields.map Prod.fst := by
    intro field
    have hperm := ((Json.perm_sortFields fields).map Prod.fst).mem_iff (a := field)
    rw [List.map_map] at hperm
    exact hperm
  rw [closedObject, closedFields_congr hmem]

theorem digits_toString (n : ℕ) : digits (toString n) = some n := by
  have htoList : (toString n).toList = Nat.toDigits 10 n := String.toList_ofList
  have hne : toString n ≠ "" := by
    intro heq
    rw [heq] at htoList
    exact Nat.toDigits_ne_nil htoList.symm
  have hdigits : (toString n).toList.all Char.isDigit = true := by
    rw [htoList, List.all_eq_true]
    exact fun c hc => Nat.isDigit_of_mem_toDigits (by omega) (by omega) hc
  unfold digits
  rw [if_pos ⟨hne, hdigits⟩, htoList, Nat.ofDigitChars_ten_toDigits]

theorem parsePosition_entry (e : ℕ × ℕ) :
    parsePosition (toString e.1, .int e.2) = some e := by
  unfold parsePosition
  dsimp only
  rw [digits_toString, integer, if_neg (by omega)]
  rfl

theorem mapM_eq_some_filterMap {α β : Type} {f : α → Option β} {l : List α}
    (h : ∀ x ∈ l, (f x).isSome) : l.mapM f = some (l.filterMap f) := by
  induction l with
  | nil => rfl
  | cons x l ih =>
    obtain ⟨y, hy⟩ := Option.isSome_iff_exists.mp (h x List.mem_cons_self)
    rw [List.mapM_cons, hy, ih fun x hx => h x (List.mem_cons_of_mem _ hx),
      List.filterMap_cons_some hy]
    rfl

/-- The positions of a payload are read back, in the order of the partitions. -/
theorem parsePositions_sorted {positions : Dict ℕ ℕ} (few : 1 ≤ positions.entries.length ∧
    positions.entries.length ≤ maxCursorPartitions) :
    parsePositions (some (Json.obj (positions.sorted.entries.map fun e =>
      (toString e.1, .int e.2))).sorted) = some positions.sorted := by
  have hperm := Json.perm_sortFields (positions.sorted.entries.map fun e =>
    (toString e.1, Json.int e.2))
  rw [List.map_map] at hperm
  rw [Json.sorted_obj]
  generalize Json.sortFields (positions.sorted.entries.map fun e =>
    (toString e.1, Json.int e.2)) = fields at hperm ⊢
  -- Every field is an entry, and every entry a field, in the order of their texts.
  have hentries : (fields.filterMap parsePosition).Perm positions.sorted.entries := by
    have hself : (parsePosition ∘ fun e : ℕ × ℕ => (toString e.1, Json.int e.2)) = some :=
      funext parsePosition_entry
    refine (hperm.filterMap parsePosition).trans (List.Perm.of_eq ?_)
    rw [List.filterMap_map]
    change positions.sorted.entries.filterMap
      (parsePosition ∘ fun e : ℕ × ℕ => (toString e.1, Json.int e.2)) = _
    rw [hself, List.filterMap_some]
  have hparse : fields.mapM parsePosition = some (fields.filterMap parsePosition) := by
    refine mapM_eq_some_filterMap fun field hfield => ?_
    obtain ⟨e, -, rfl⟩ := List.mem_map.mp (hperm.mem_iff.mp hfield)
    exact Option.isSome_iff_exists.mpr ⟨e, parsePosition_entry e⟩
  have hnodup : ((fields.filterMap parsePosition).map Prod.fst).Nodup :=
    (hentries.map Prod.fst).nodup_iff.mpr positions.sorted.nodup
  have hget : ∀ p, (Dict.ofList (fields.filterMap parsePosition)).get? p = positions.get? p := by
    intro p
    rw [Dict.get?_ofList hnodup, ← Dict.lookup_eq_of_perm hentries hnodup,
      ← Dict.get?_sorted positions]
    rfl
  have hlength := (Dict.perm_entries_of_get?_eq hget).length_eq
  unfold parsePositions
  dsimp only
  rw [hparse]
  dsimp only
  unfold normalizePositions
  rw [hlength, if_pos few, Dict.sorted_eq_of_get?_eq hget]

/-- A payload: the fields of a token, each of them once. -/
structure IsPayload (lib : CodecLibraries) (fields : List (String × Json)) (type : TokenType)
    (resource : ResourceRef) (topic : String) (positions : Dict ℕ ℕ) (expiry : ℤ) : Prop where
  nodup : (fields.map Prod.fst).Nodup
  closed : closedFields tokenFields optionalTokenFields (fields.map Prod.fst) = true
  type : fields.lookup "type" = some (.str type.str)
  resource : fields.lookup "resource" = some (.str resource.str)
  topicFingerprint : fields.lookup "topicFingerprint" = some (.str (lib.topicFingerprint topic))
  positions : fields.lookup "positions" =
    some (.obj (positions.sorted.entries.map fun e => (toString e.1, .int e.2)))
  expiresAtMs : fields.lookup "expiresAtMs" = some (.int expiry)

namespace IsPayload

variable {lib : CodecLibraries} {fields : List (String × Json)} {type : TokenType}
  {resource : ResourceRef} {topic : String} {positions : Dict ℕ ℕ} {expiry : ℤ}

theorem of_payload (nowMs : ℕ) :
    IsPayload lib (SignedCursorCodec.payload lib type resource topic positions nowMs expiry) type
      resource topic positions expiry where
  nodup := by
    change tokenFields.Nodup
    decide +kernel
  closed := by
    change closedFields tokenFields optionalTokenFields tokenFields = true
    decide +kernel
  type := rfl
  resource := rfl
  topicFingerprint := rfl
  positions := rfl
  expiresAtMs := rfl

/-- The payload of a delivery has the other fields as well. -/
theorem append_delivery (nowMs : ℕ) (subscription consumerGroup : ResourceRef)
    (assignmentEpoch attempt : ℕ) :
    IsPayload lib (SignedCursorCodec.payload lib type resource topic positions nowMs expiry ++
      SignedCursorCodec.deliveryFields subscription consumerGroup assignmentEpoch attempt) type
      resource topic positions expiry where
  nodup := by
    change (tokenFields ++ optionalTokenFields).Nodup
    decide +kernel
  closed := by
    change closedFields tokenFields optionalTokenFields (tokenFields ++ optionalTokenFields) = true
    decide +kernel
  type := rfl
  resource := rfl
  topicFingerprint := rfl
  positions := rfl
  expiresAtMs := rfl

variable (h : IsPayload lib fields type resource topic positions expiry)
include h

theorem lookup_str (key : String) {value : String} (hkey : fields.lookup key = some (.str value)) :
    (Json.sortFields fields).lookup key = some (.str value) := by
  rw [Json.lookup_sortFields h.nodup, hkey]
  rfl

theorem lookup_int (key : String) {value : ℤ} (hkey : fields.lookup key = some (.int value)) :
    (Json.sortFields fields).lookup key = some (.int value) := by
  rw [Json.lookup_sortFields h.nodup, hkey]
  rfl

/-- The checks of `decode` on a payload: its type, and its expiry. -/
theorem checkItem_eq (nowMs : ℕ) (expected : TokenType) :
    TokenCodec.checkItem nowMs expected (.obj (Json.sortFields fields)) =
      if type = expected then
        if expiry < 1 then .error .invalid
        else if nowMs ≥ expiry then .error .expired
        else .ok (Json.sortFields fields)
      else .error .invalid := by
  have htype := fieldIs_of_lookup (h.lookup_str _ h.type) expected.str
  unfold TokenCodec.checkItem
  rw [closedObject_sortFields, if_pos h.closed]
  dsimp only
  rw [h.lookup_int _ h.expiresAtMs]
  by_cases heq : type = expected
  · rw [if_pos (htype.mpr (congrArg _ heq)), if_pos heq, integer]
    by_cases hexpiry : expiry < 1
    · rw [if_pos hexpiry, if_pos hexpiry]
    · rw [if_neg hexpiry, if_neg hexpiry]
  · rw [if_neg fun hfield => heq (TokenType.str_inj (htype.mp hfield)), if_neg heq]

/-- A payload is about its own Resource and topic. -/
theorem validates_iff (resource' : ResourceRef) (topic' : String) :
    SignedCursorCodec.validates lib (Json.sortFields fields) resource' topic' = true ↔
      resource.str = resource'.str ∧ lib.topicFingerprint topic = lib.topicFingerprint topic' := by
  unfold SignedCursorCodec.validates
  rw [Bool.and_eq_true, fieldIs_of_lookup (h.lookup_str _ h.resource),
    fieldIs_of_lookup (h.lookup_str _ h.topicFingerprint)]

theorem parsePositions_eq (few : 1 ≤ positions.entries.length ∧
    positions.entries.length ≤ maxCursorPartitions) :
    parsePositions ((Json.sortFields fields).lookup "positions") = some positions.sorted := by
  rw [Json.lookup_sortFields h.nodup, h.positions, Option.map_some]
  exact parsePositions_sorted few

end IsPayload

/-- What the codec is asked to write. -/
inductive TokenRequest
  | cursor (resource : ResourceRef) (topic : String) (positions : Dict ℕ ℕ)
      (expiresAtMs : Option ℤ)
  | position (resource : ResourceRef) (topic : String) (partition offset : ℕ)
      (logicalPartition : Option String)
  | delivery (subscription consumerGroup : ResourceRef) (topic : String)
      (partition offset assignmentEpoch attempt : ℕ) (expiresAtMs : ℤ)

/-- For what a token is read: its kind, and what it has to be about. -/
inductive TokenScope
  | cursor (resource : ResourceRef) (topic : String)
  | position (resource : ResourceRef) (topic : String)
  | delivery (subscription consumerGroup : ResourceRef) (topic : String)
  deriving DecidableEq

/-- What a reader returns. -/
inductive TokenCoordinates
  | cursor (coordinates : CursorCoordinates)
  | position (coordinates : PositionCoordinates)
  | delivery (coordinates : DeliveryCoordinates)
  deriving DecidableEq

namespace TokenScope

def type : TokenScope → TokenType
  | .cursor .. => .cursor
  | .position .. => .position
  | .delivery .. => .delivery

/-- The Resource and, for a delivery, the ConsumerGroup. -/
def refs : TokenScope → List ResourceRef
  | .cursor resource _ => [resource]
  | .position resource _ => [resource]
  | .delivery subscription consumerGroup _ => [subscription, consumerGroup]

def topic : TokenScope → String
  | .cursor _ topic => topic
  | .position _ topic => topic
  | .delivery _ _ topic => topic

/-- The text of a token that comes in. -/
def textOf (lib : CodecLibraries) (value : TokenValue) :
    TokenScope → Except (Option Raised) String
  | .cursor resource _ => value.textFor lib.cursorFromMapping resource
  | .position resource _ => value.textFor lib.positionFromMapping resource
  | .delivery subscription consumerGroup _ =>
    value.textFor lib.deliveryTokenFromMapping (subscription, consumerGroup)

/-- The coordinates in a payload. -/
def read (lib : CodecLibraries) (item : List (String × Json)) :
    TokenScope → Option TokenCoordinates
  | .cursor resource topic => (SignedCursorCodec.readCursor lib resource topic item).map .cursor
  | .position resource topic =>
    (SignedCursorCodec.readPosition lib resource topic item).map .position
  | .delivery subscription consumerGroup topic =>
    (SignedCursorCodec.readDelivery lib subscription consumerGroup topic item).map .delivery

end TokenScope

namespace TokenRequest

/-- The scope that a token is written for. -/
def scope : TokenRequest → TokenScope
  | .cursor resource topic _ _ => .cursor resource topic
  | .position resource topic _ _ _ => .position resource topic
  | .delivery subscription consumerGroup topic _ _ _ _ _ =>
    .delivery subscription consumerGroup topic

variable (codec : SignedCursorCodec) (nowMs : ℕ)

/-- The instant at which a token expires that is written now. -/
def expiry : TokenRequest → ℤ
  | .cursor _ _ _ expiresAtMs => codec.expiry nowMs expiresAtMs
  | .position .. => nowMs + codec.ttlMs
  | .delivery _ _ _ _ _ _ _ expiresAtMs => expiresAtMs

/-- What a token is to give back, the positions of a cursor in the order of the
partitions. -/
def coordinates : TokenRequest → TokenCoordinates
  | .cursor resource _ positions expiresAtMs =>
    .cursor
      { resource, positions := positions.sorted, expiresAtMs := codec.expiry nowMs expiresAtMs }
  | .position resource _ partition offset _ => .position { resource, partition, offset }
  | .delivery subscription consumerGroup _ partition offset assignmentEpoch attempt expiresAtMs =>
    .delivery
      { subscription, consumerGroup, partition, offset, assignmentEpoch, attempt
        expiresAtMs := expiresAtMs.toNat }

/-- An attempt is counted from one. -/
def Counted : TokenRequest → Prop
  | .delivery _ _ _ _ _ _ attempt _ => 1 ≤ attempt
  | _ => True

end TokenRequest

namespace SignedCursorCodec

variable (lib : CodecLibraries) (codec : SignedCursorCodec)

/-- The writer for a request. -/
def encode (nowMs : ℕ) : TokenRequest → Except Raised String
  | .cursor resource topic positions expiresAtMs =>
    (codec.encodeCursor lib nowMs resource topic positions expiresAtMs).map (·.value)
  | .position resource topic partition offset logicalPartition =>
    (codec.encodePosition lib nowMs resource topic partition offset logicalPartition).map (·.value)
  | .delivery subscription consumerGroup topic partition offset assignmentEpoch attempt
      expiresAtMs =>
    (codec.encodeDelivery lib nowMs subscription consumerGroup topic partition offset
      assignmentEpoch attempt expiresAtMs).map (·.value)

/-- The reader for a scope. -/
def decode (nowMs : ℕ) (value : TokenValue) : TokenScope → Except Raised TokenCoordinates
  | .cursor resource topic => (codec.decodeCursor lib nowMs value resource topic).map .cursor
  | .position resource topic =>
    (codec.decodePosition lib nowMs value resource topic).map .position
  | .delivery subscription consumerGroup topic =>
    (codec.decodeDelivery lib nowMs value subscription consumerGroup topic).map .delivery

end SignedCursorCodec

/-! ### One payload -/

namespace IsPayload

variable {lib : CodecLibraries} {fields : List (String × Json)} {type : TokenType}
  {resource : ResourceRef} {topic : String} {positions : Dict ℕ ℕ} {expiry : ℤ}

theorem validates_self (h : IsPayload lib fields type resource topic positions expiry) :
    SignedCursorCodec.validates lib (Json.sortFields fields) resource topic = true :=
  (h.validates_iff resource topic).mpr ⟨rfl, rfl⟩

theorem integer_expiresAtMs (h : IsPayload lib fields type resource topic positions expiry)
    (live : 1 ≤ expiry) :
    integer 1 ((Json.sortFields fields).lookup "expiresAtMs") = some expiry := by
  rw [h.lookup_int _ h.expiresAtMs, integer, if_neg (by omega)]

/-- The one coordinate of a payload. -/
theorem readCoordinate_eq {partition offset : ℕ}
    (h : IsPayload lib fields type resource topic (Dict.empty.set partition offset) expiry) :
    SignedCursorCodec.readCoordinate (Json.sortFields fields) = some (partition, offset) := by
  have hsorted : (Dict.empty.set partition offset).sorted.entries = [(partition, offset)] := rfl
  have hpositions := h.parsePositions_eq
    ⟨Nat.le_refl 1, (by decide : 1 ≤ maxCursorPartitions)⟩
  unfold SignedCursorCodec.readCoordinate
  rw [hpositions]
  dsimp only
  rw [hsorted]

end IsPayload

/-- What the fields of a token come to: they are a payload, the reader for their own scope
finds the coordinates in them, and any other reader of their kind is about that scope. -/
structure TokenRequest.WrittenAs (request : TokenRequest) (lib : CodecLibraries)
    (codec : SignedCursorCodec) (nowMs : ℕ) (fields : List (String × Json)) : Prop where
  payload : ∃ resource positions, IsPayload lib fields request.scope.type resource
    request.scope.topic positions (request.expiry codec nowMs)
  read : 1 ≤ request.expiry codec nowMs → request.Counted →
    request.scope.read lib (Json.sortFields fields) = some (request.coordinates codec nowMs)
  scope : ∀ (scope : TokenScope) c, scope.type = request.scope.type →
    scope.read lib (Json.sortFields fields) = some c →
      scope.refs.map ResourceRef.str = request.scope.refs.map ResourceRef.str ∧
        lib.topicFingerprint scope.topic = lib.topicFingerprint request.scope.topic

section Written

variable {lib : CodecLibraries} {codec : SignedCursorCodec} {nowMs : ℕ}

theorem writtenAs_cursor {resource : ResourceRef} {topic : String} {positions : Dict ℕ ℕ}
    {expiresAtMs : Option ℤ} (few : 1 ≤ positions.entries.length ∧
      positions.entries.length ≤ maxCursorPartitions) :
    (TokenRequest.cursor resource topic positions expiresAtMs).WrittenAs lib codec nowMs
      (SignedCursorCodec.payload lib .cursor resource topic positions.sorted nowMs
        (codec.expiry nowMs expiresAtMs)) := by
  have hpayload : IsPayload lib (SignedCursorCodec.payload lib .cursor resource topic
      positions.sorted nowMs (codec.expiry nowMs expiresAtMs)) .cursor resource topic
      positions.sorted (codec.expiry nowMs expiresAtMs) := .of_payload nowMs
  have hlength : positions.sorted.entries.length = positions.entries.length :=
    List.length_insertionSort _ _
  refine ⟨⟨resource, positions.sorted, hpayload⟩, fun live _ => ?_, ?_⟩
  · have hsorted : positions.sorted.sorted = positions.sorted :=
      Dict.sorted_eq_of_get?_eq fun p => Dict.get?_sorted positions p
    change (SignedCursorCodec.readCursor lib resource topic _).map _ = _
    unfold SignedCursorCodec.readCursor
    rw [if_pos hpayload.validates_self, hpayload.parsePositions_eq (by rwa [hlength]),
      hpayload.integer_expiresAtMs live, hsorted]
    rfl
  -- A scope under which the cursor is read is the one that it was written for: the payload carries
  -- the resource and the topic's fingerprint.
  · intro scope c htype hread
    cases scope with
    | cursor resource' topic' =>
      change (SignedCursorCodec.readCursor lib resource' topic' _).map _ = _ at hread
      unfold SignedCursorCodec.readCursor at hread
      split at hread
      · next hvalid =>
        obtain ⟨hresource, htopic⟩ := (hpayload.validates_iff resource' topic').mp hvalid
        exact ⟨congrArg (fun s => [s]) hresource.symm, htopic.symm⟩
      · simp at hread
    | position resource' topic' => exact TokenType.noConfusion htype
    | delivery subscription' consumerGroup' topic' => exact TokenType.noConfusion htype

theorem writtenAs_position {resource : ResourceRef} {topic : String} {partition offset : ℕ}
    {logicalPartition : Option String} :
    (TokenRequest.position resource topic partition offset logicalPartition).WrittenAs lib codec
      nowMs (SignedCursorCodec.payload lib .position resource topic
        (Dict.empty.set partition offset) nowMs (nowMs + codec.ttlMs)) := by
  have hpayload : IsPayload lib (SignedCursorCodec.payload lib .position resource topic
      (Dict.empty.set partition offset) nowMs (nowMs + codec.ttlMs)) .position resource topic
      (Dict.empty.set partition offset) (nowMs + codec.ttlMs) := .of_payload nowMs
  refine ⟨⟨resource, _, hpayload⟩, fun _ _ => ?_, ?_⟩
  · change (SignedCursorCodec.readPosition lib resource topic _).map _ = _
    unfold SignedCursorCodec.readPosition
    rw [if_pos hpayload.validates_self, hpayload.readCoordinate_eq]
    rfl
  · intro scope c htype hread
    -- A reader of another kind expects another type.
    cases scope with
    | position resource' topic' =>
      change (SignedCursorCodec.readPosition lib resource' topic' _).map _ = _ at hread
      unfold SignedCursorCodec.readPosition at hread
      split at hread
      · next hvalid =>
        obtain ⟨hresource, htopic⟩ := (hpayload.validates_iff resource' topic').mp hvalid
        exact ⟨congrArg (fun s => [s]) hresource.symm, htopic.symm⟩
      · simp at hread
    | cursor resource' topic' => exact TokenType.noConfusion htype
    | delivery subscription' consumerGroup' topic' => exact TokenType.noConfusion htype

theorem writtenAs_delivery {subscription consumerGroup : ResourceRef} {topic : String}
    {partition offset assignmentEpoch attempt : ℕ} {expiresAtMs : ℤ} :
    (TokenRequest.delivery subscription consumerGroup topic partition offset assignmentEpoch
      attempt expiresAtMs).WrittenAs lib codec nowMs
      (SignedCursorCodec.payload lib .delivery subscription topic
          (Dict.empty.set partition offset) nowMs expiresAtMs ++
        SignedCursorCodec.deliveryFields subscription consumerGroup assignmentEpoch attempt) := by
  have hpayload : IsPayload lib (SignedCursorCodec.payload lib .delivery subscription topic
      (Dict.empty.set partition offset) nowMs expiresAtMs ++
      SignedCursorCodec.deliveryFields subscription consumerGroup assignmentEpoch attempt)
      .delivery subscription topic (Dict.empty.set partition offset) expiresAtMs :=
    .append_delivery nowMs ..
  have hsubscription := hpayload.lookup_str "subscription" rfl
  have hgroup := hpayload.lookup_str "consumerGroup" rfl
  have hepoch := hpayload.lookup_int "assignmentEpoch" rfl
  have hattempt := hpayload.lookup_int "attempt" rfl
  generalize SignedCursorCodec.payload lib .delivery subscription topic
    (Dict.empty.set partition offset) nowMs expiresAtMs ++
      SignedCursorCodec.deliveryFields subscription consumerGroup assignmentEpoch attempt = fields
    at hpayload hsubscription hgroup hepoch hattempt ⊢
  refine ⟨⟨subscription, _, hpayload⟩, fun live counted => ?_, ?_⟩
  · change (SignedCursorCodec.readDelivery lib subscription consumerGroup topic _).map _ = _
    -- The scope that it was written for is the one that is read.
    have hscope : (SignedCursorCodec.validates lib (Json.sortFields fields) subscription topic &&
        fieldIs (Json.sortFields fields) "subscription" subscription.str &&
        fieldIs (Json.sortFields fields) "consumerGroup" consumerGroup.str) = true := by
      rw [Bool.and_eq_true, Bool.and_eq_true]
      exact ⟨⟨hpayload.validates_self, (fieldIs_of_lookup hsubscription _).mpr rfl⟩,
        (fieldIs_of_lookup hgroup _).mpr rfl⟩
    have hone : ¬((attempt : ℤ) < 1) := by
      have hcounted : 1 ≤ attempt := counted
      omega
    unfold SignedCursorCodec.readDelivery
    rw [if_pos hscope, hpayload.readCoordinate_eq, hepoch, hattempt,
      hpayload.integer_expiresAtMs live, integer, integer, if_neg (by omega), if_neg hone]
    rfl
  -- A scope that reads it agrees with it in every reference.
  · intro scope c htype hread
    cases scope with
    | delivery subscription' consumerGroup' topic' =>
      change (SignedCursorCodec.readDelivery lib subscription' consumerGroup' topic' _).map _ = _
        at hread
      unfold SignedCursorCodec.readDelivery at hread
      split at hread
      · next hscope =>
        rw [Bool.and_eq_true, Bool.and_eq_true] at hscope
        obtain ⟨⟨hvalid, -⟩, hsame⟩ := hscope
        obtain ⟨hresource, htopic⟩ := (hpayload.validates_iff subscription' topic').mp hvalid
        have hsame := (fieldIs_of_lookup hgroup _).mp hsame
        refine ⟨?_, htopic.symm⟩
        change [subscription'.str, consumerGroup'.str] = [subscription.str, consumerGroup.str]
        rw [hresource, hsame]
      · simp at hread
    | cursor resource' topic' => exact TokenType.noConfusion htype
    | position resource' topic' => exact TokenType.noConfusion htype

/-- A token that was written is a payload of its request under a signature. -/
theorem exists_writtenAs {request : TokenRequest} {token : String}
    (encoded : codec.encode lib nowMs request = .ok token) :
    ∃ fields, codec.codec.encode lib fields = .ok token ∧
      request.WrittenAs lib codec nowMs fields := by
  have hmap : ∀ {α : Type} {x : Except Raised α} {f : α → String}, x.map f = .ok token →
      ∃ a, x = .ok a ∧ f a = token := by
    intro α x f hx
    cases x with
    | error raised => simp [Except.map] at hx
    | ok a => exact ⟨a, rfl, Except.ok.inj hx⟩
  cases request with
  | cursor resource topic positions expiresAtMs =>
    -- The codec returns when the token is written and its expiry is a date.
    obtain ⟨cursor, hcursor, rfl⟩ := hmap encoded
    unfold SignedCursorCodec.encodeCursor normalizePositions at hcursor
    split_ifs at hcursor with few
    · obtain ⟨value, hvalue, hcursor⟩ := exists_of_bind_eq_ok hcursor
      obtain ⟨instant, -, hcursor⟩ := exists_of_bind_eq_ok hcursor
      obtain rfl := Except.ok.inj hcursor
      exact ⟨_, hvalue, writtenAs_cursor few⟩
  | position resource topic partition offset logicalPartition =>
    obtain ⟨position, hposition, rfl⟩ := hmap encoded
    obtain ⟨value, hvalue, hposition⟩ := exists_of_bind_eq_ok hposition
    obtain rfl := Except.ok.inj hposition
    exact ⟨_, hvalue, writtenAs_position⟩
  | delivery subscription consumerGroup topic partition offset assignmentEpoch attempt
      expiresAtMs =>
    obtain ⟨delivery, hdelivery, rfl⟩ := hmap encoded
    obtain ⟨value, hvalue, hdelivery⟩ := exists_of_bind_eq_ok hdelivery
    obtain ⟨instant, -, hdelivery⟩ := exists_of_bind_eq_ok hdelivery
    obtain rfl := Except.ok.inj hdelivery
    exact ⟨_, hvalue, writtenAs_delivery⟩

end Written

namespace SignedCursorCodec

variable {lib : CodecLibraries} {codec : SignedCursorCodec} {nowMs : ℕ}

theorem decodeAs_ok_iff {α : Type} {text : Except (Option Raised) String} {type : TokenType}
    {expired invalid : Failure} {read : List (String × Json) → Option α} {c : α} :
    codec.decodeAs lib nowMs text type expired invalid read = .ok c ↔
      ∃ token item, text = .ok token ∧ codec.codec.decode lib nowMs token type = .ok item ∧
        read item = some c := by
  unfold decodeAs
  -- Every failure on the way is an error, so the three steps have returned.
  constructor
  · intro h
    split at h
    · simp at h
    · simp at h
    next token =>
    split at h
    · simp at h
    · simp at h
    next item hitem =>
    split at h
    · next coordinates hread =>
      obtain rfl := Except.ok.inj h
      exact ⟨token, item, rfl, hitem, hread⟩
    · simp at h
  · rintro ⟨token, item, rfl, hitem, hread⟩
    dsimp only
    rw [hitem]
    dsimp only
    rw [hread]

variable {request : TokenRequest} {token : String}

end SignedCursorCodec

/-! ### A cursor and a rotated ring -/

namespace Sample

/-- Thirty-two bytes, from a number. -/
def digest (n : ℕ) : Vector UInt8 32 := 
  Vector.ofFn fun i => UInt8.ofNat (n >>> (8 * (31 - i.val)))

def signingKey : TokenKey where
  keyId := "k1"
  key := List.replicate 32 7
  active := true
  bounded := by decide +kernel
  safe := by decide +kernel
  size := by decide

/-- The key and its padding. -/
def hmacBlock : List UInt8 := List.replicate 32 7 ++ List.replicate 32 0

def cursorBody : String :=
  "eyJleHBpcmVzQXRNcyI6MTEwMCwiaXNzdWVkQXRNcyI6MTAwLCJwb3NpdGlvbnMiOnsiMCI6MSwiMTAiOjUsIjIiOjd9" ++
  "LCJyZXNvdXJjZSI6InN0cmVhbWluZzpzYWxlcy9vcmRlcnMiLCJ0b3BpY0ZpbmdlcnByaW50Ijoic2hhMjU2OjJjNDQz" ++
  "ZDlhYzQwNDIzM2EzYmU5MmFjNDk3ZGNlYjdmNTExOGJiNmQ5NjYxY2NiNjQ4Y2EyYjA0M2Y0ZDlmZjciLCJ0eXBlIjoi" ++
  "Y3Vyc29yIn0"

/-- SHA-256 on the bytes that the cursor below asks for. -/
def sha256 : Sha256 := fun bytes =>
  if bytes = utf8 "orders.v1" then
    digest 0x2c443d9ac404233a3be92ac497dceb7f5118bb6d9661ccb648ca2b043f4d9ff7
  else if bytes = utf8 "payments.v1" then
    digest 0xfcd0b1bc360eca977c99ad34a6ccf321d3e0a33d1ff03b1062a8e59320709a34
  else if bytes = hmacBlock.map (· ^^^ 0x36) ++ utf8 ("mk1.k1." ++ cursorBody) then
    digest 0x23aa169eeff2a51f58a59bf92a67e073fe55b213be754fb96401dd9c5678f6d9
  else if bytes = hmacBlock.map (· ^^^ 0x5c) ++ (digest
      0x23aa169eeff2a51f58a59bf92a67e073fe55b213be754fb96401dd9c5678f6d9).toList then
    digest 0x5a26c05330d6626a4390618373896272f951ddcaab50e6d689db87264ecd5e77
  else digest 0

def libraries : CodecLibraries where
  json := plainJson
  sha256 := sha256
  cursorFromMapping _ := .error none
  positionFromMapping _ := .error none
  deliveryTokenFromMapping _ := .error none

def salesOrders : ResourceRef := ⟨"streaming", "sales", "orders"⟩

def cursorRequest : TokenRequest :=
  .cursor salesOrders "orders.v1" (Dict.ofList [(10, 5), (2, 7), (0, 1)]) none

def signingCodec : SignedCursorCodec :=
  { codec := { keys := Dict.ofList [("k1", signingKey)], active := signingKey }, ttlMs := 1000 }

end Sample

namespace SignedCursorCodec

open Sample

theorem exists_cursorToken :
    ∃ token, signingCodec.encode libraries 100 cursorRequest = .ok token := by
  have hsmall : (libraries.json.canonicalJsonBytes (.obj (payload libraries .cursor salesOrders
      "orders.v1" (Dict.ofList [(10, 5), (2, 7), (0, 1)]).sorted 100 1100))).toOption.any
        (·.length ≤ 2900) = true := by
    decide +kernel
  cases canonical : libraries.json.canonicalJsonBytes (.obj (payload libraries .cursor salesOrders
      "orders.v1" (Dict.ofList [(10, 5), (2, 7), (0, 1)]).sorted 100 1100)) with
  | error raised => rw [canonical] at hsmall; exact absurd hsmall Bool.false_ne_true
  | ok bytes =>
    rw [canonical] at hsmall
    obtain ⟨value, hvalue⟩ := TokenCodec.exists_encode signingCodec.codec canonical
      (decide_eq_true_iff.mp hsmall)
    have hfew : normalizePositions (Dict.ofList [(10, 5), (2, 7), (0, 1)]) =
        some (Dict.ofList [(10, 5), (2, 7), (0, 1)]).sorted := rfl
    have hexpiry : signingCodec.expiry 100 none = 1100 := rfl
    refine ⟨value, ?_⟩
    unfold SignedCursorCodec.encode cursorRequest
    dsimp only
    unfold encodeCursor
    rw [hfew, hexpiry]
    dsimp only
    rw [hvalue]
    rfl

end SignedCursorCodec

end MeridianKafka
