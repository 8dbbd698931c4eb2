import MeridianKafka.Cursor.RoundTrip
import MeridianKafka.Framework.JsonSize
import MeridianKafka.Range.Paging

/-!
# The size of a cursor

A cursor may hold the positions of 128 partitions, and a token 4096 bytes. The two bounds
do not know of each other: the positions are written in decimal, so that how many fit
depends on their digits.

`cursorBytes` is the size of a payload, from the lengths of its numbers and of its
reference; the payload is as long whatever the order of the positions. A cursor is written
exactly when that size leaves room for the key id and the signature (`CursorFits`), and a
read whose loop has come to an end returns its page exactly then (`cursor_written_iff`).
With 128 partitions far into their logs it does not (`long_offsets_do_not_fit`).
-/

namespace MeridianKafka

open Framework TokenPayload

/-- The decimal digits of a number. -/
def decimals (n : ℕ) : ℕ := (Nat.toDigits 10 n).length

/-- The bytes of the positions in a payload, each with its quotes, its colon and what
stands behind it. -/
def positionsBytes (positions : Dict ℕ ℕ) : ℕ :=
  (positions.entries.map fun e => decimals e.1 + decimals e.2 + 4).sum

/-- The bytes of the payload of a cursor. The names of the fields, the fingerprint and the
type take 165 of them. -/
def cursorBytes (nowMs : ℕ) (resource : ResourceRef) (positions : Dict ℕ ℕ) (expiresAtMs : ℤ) : ℕ :=
  165 + Json.quoteSize resource.str + positionsBytes positions + decimals nowMs +
    (Json.intText expiresAtMs).length

/-- A cursor can be written: it has a position, its payload leaves room for the key id and
the signature, and a `datetime` can hold its expiry. -/
structure SignedCursorCodec.CursorFits (codec : SignedCursorCodec) (nowMs : ℕ)
    (resource : ResourceRef) (positions : Dict ℕ ℕ) (expiresAtMs : ℤ) : Prop where
  nonempty : positions.entries ≠ []
  room : 4 * cursorBytes nowMs resource positions expiresAtMs ≤
    3 * (4047 - codec.codec.active.keyId.utf8ByteSize)
  expires : -62135596800000 ≤ expiresAtMs ∧ expiresAtMs ≤ 253402300799999

namespace SignedCursorCodec

/-! ### The payload -/

variable {lib : CodecLibraries} {codec : SignedCursorCodec}

theorem intText_natCast (n : ℕ) : Json.intText (n : ℤ) = Nat.toDigits 10 n := by
  unfold Json.intText
  rw [if_neg (by omega), Int.natAbs_natCast]

theorem toList_toString (n : ℕ) : (toString n).toList = Nat.toDigits 10 n := String.toList_ofList

/-- The key of a position has its digits between quotes. -/
theorem quoteSize_toString (n : ℕ) : Json.quoteSize (toString n) = decimals n + 2 := by
  rw [Json.quoteSize_of_plain, toList_toString, decimals]
  intro c hc
  rw [toList_toString] at hc
  exact Json.plain_of_isDigit (Nat.isDigit_of_mem_toDigits (by omega) (by omega) hc)

/-- A fingerprint is seven characters and 64 digits. -/
theorem quoteSize_fingerprint (sha256 : Sha256) (bytes : List UInt8) :
    Json.quoteSize (sha256.fingerprint bytes) = 73 := by
  have htoList : (sha256.fingerprint bytes).toList = "sha256:".toList ++
      (sha256 bytes).toList.flatMap fun byte =>
        [(byte.toNat / 16).digitChar, (byte.toNat % 16).digitChar] := by
    unfold Sha256.fingerprint hexDigits
    rw [String.toList_append]
    exact congrArg _ String.toList_ofList
  -- none of its characters is escaped, so the size is the length and the quotes
  rw [Json.quoteSize_of_plain, htoList]
  · simp
  · intro c hc
    rw [htoList, List.mem_append, List.mem_flatMap] at hc
    obtain hc | ⟨byte, -, hc⟩ := hc
    · have hname : (['s', 'h', 'a', '2', '5', '6', ':'].all fun c => Json.Plain c) = true := rfl
      exact of_decide_eq_true (List.all_eq_true.mp hname c hc)
    · have hbyte := byte.toNat_lt
      obtain rfl | hc := List.mem_cons.mp hc
      · exact Json.plain_digitChar _ (by omega)
      · obtain rfl := List.mem_singleton.mp hc
        exact Json.plain_digitChar _ (by omega)

variable {nowMs : ℕ} {resource : ResourceRef} {topic : String} {positions : Dict ℕ ℕ}
  {expiresAtMs : ℤ}

/-- The size of the positions, whatever their order. -/
theorem fieldsSize_positions (positions : Dict ℕ ℕ) :
    Json.fieldsSize (positions.sorted.sorted.entries.map fun e => (toString e.1, .int e.2)) =
      positionsBytes positions := by
  have hperm : positions.sorted.sorted.entries.Perm positions.entries :=
    (List.perm_insertionSort _ _).trans (List.perm_insertionSort _ _)
  rw [Json.fieldsSize_eq, List.map_map]
  refine ((hperm.map _).sum_nat).trans (congrArg List.sum (List.map_congr_left fun e _ => ?_))
  change Json.quoteSize (toString e.1) + 1 + (Json.intText (e.2 : ℤ)).length + 1 = _
  rw [quoteSize_toString, intText_natCast]
  change decimals e.1 + 2 + 1 + decimals e.2 + 1 = _
  omega

/-- **The size of a payload.** -/
theorem byteSize_payload (nonempty : positions.entries ≠ []) :
    (Json.obj (payload lib .cursor resource topic positions.sorted nowMs expiresAtMs)).byteSize =
      cursorBytes nowMs resource positions expiresAtMs := by
  have hpositive : 1 ≤ positionsBytes positions := by
    obtain ⟨e, rest, heq⟩ := List.exists_cons_of_ne_nil nonempty
    unfold positionsBytes
    rw [heq, List.map_cons, List.sum_cons]
    omega
  have hpositions : (Json.obj (positions.sorted.sorted.entries.map fun e =>
      (toString e.1, .int e.2))).byteSize = 1 + positionsBytes positions := by
    rw [Json.byteSize, fieldsSize_positions, max_eq_right hpositive]
  have hcursor : (Json.str TokenType.cursor.str).byteSize = 8 := by decide
  have hresource : (Json.str resource.str).byteSize = Json.quoteSize resource.str := rfl
  have hfingerprint : (Json.str (lib.topicFingerprint topic)).byteSize = 73 :=
    quoteSize_fingerprint _ _
  have hissued : (Json.int nowMs).byteSize = decimals nowMs := by
    rw [Json.byteSize, intText_natCast, decimals]
  have hexpires : (Json.int expiresAtMs).byteSize = (Json.intText expiresAtMs).length := rfl
  -- the names of the fields, between their quotes
  have hnames : Json.quoteSize "type" = 6 ∧ Json.quoteSize "resource" = 10 ∧
      Json.quoteSize "topicFingerprint" = 18 ∧ Json.quoteSize "positions" = 11 ∧
      Json.quoteSize "issuedAtMs" = 12 ∧ Json.quoteSize "expiresAtMs" = 13 := by decide
  obtain ⟨htype, hname, htopic, hplaces, hissuedAt, hexpiresAt⟩ := hnames
  unfold payload
  rw [Json.byteSize]
  simp only [Json.fieldsSize, hcursor, hresource, hfingerprint, hpositions, hissued, hexpires,
    htype, hname, htopic, hplaces, hissuedAt, hexpiresAt]
  unfold cursorBytes
  omega

theorem floatFree_payload :
    (Json.obj (payload lib .cursor resource topic positions nowMs expiresAtMs)).floatFree =
      true := by
  have hpositions : Json.floatFreeFields (positions.sorted.entries.map fun e =>
      (toString e.1, .int e.2)) = true := by
    rw [Json.floatFreeFields_eq, List.all_map]
    exact List.all_eq_true.mpr fun _ _ => rfl
  simp only [payload, Json.floatFree, Json.floatFreeFields, hpositions, Bool.and_self]

/-- The keys of the payload are bounded texts, when its partitions are numbered. -/
theorem portable_payload (ids : ∀ p ∈ positions.keys, p < maxCursorPartitions) :
    portable (.obj (payload lib .cursor resource topic positions.sorted nowMs expiresAtMs)) =
      true := by
  have hkeys : ∀ n < 128, boundedString (toString n) = true := by decide +kernel
  have hpositions : portableFields (positions.sorted.sorted.entries.map fun e =>
      (toString e.1, .int e.2)) = true := by
    rw [portableFields_eq, List.all_map, List.all_eq_true]
    intro e he
    -- The partitions are numbered below 128, so their decimals are short texts.
    have hid : e.1 < 128 := by
      refine ids e.1 (List.mem_map_of_mem ?_)
      exact (List.mem_insertionSort _).mp ((List.mem_insertionSort _).mp he)
    exact Bool.and_eq_true_iff.mpr ⟨hkeys e.1 hid, rfl⟩
  have hnames : boundedString "type" = true ∧ boundedString "resource" = true ∧
      boundedString "topicFingerprint" = true ∧ boundedString "positions" = true ∧
      boundedString "issuedAtMs" = true ∧ boundedString "expiresAtMs" = true := by decide +kernel
  obtain ⟨htype, hresource, htopic, hplaces, hissuedAt, hexpiresAt⟩ := hnames
  simp only [payload, portable, portableFields, hpositions, htype, hresource, htopic, hplaces,
    hissuedAt, hexpiresAt, Bool.and_self]

/-! ### Writing a cursor -/

/-- Numbered partitions are few. -/
theorem length_entries_le_of_ids (ids : ∀ p ∈ positions.keys, p < maxCursorPartitions) :
    positions.entries.length ≤ maxCursorPartitions := by
  have hlength : positions.keys.length = positions.entries.length := List.length_map _
  have hnodup : positions.keys.Nodup := positions.nodup
  rw [← hlength, ← List.toFinset_card_of_nodup hnodup]
  calc positions.keys.toFinset.card
      ≤ (Finset.range maxCursorPartitions).card :=
        Finset.card_le_card fun p hp =>
          Finset.mem_range.mpr (ids p (List.mem_toFinset.mp hp))
    _ = maxCursorPartitions := Finset.card_range _

/-- The payload of a cursor, in the bytes that are signed. -/
theorem canonical_payload (compact : lib.json.Compact)
    (ids : ∀ p ∈ positions.keys, p < maxCursorPartitions) (nonempty : positions.entries ≠ []) :
    ∃ bytes, lib.json.canonicalJsonBytes
        (.obj (payload lib .cursor resource topic positions.sorted nowMs expiresAtMs)) = .ok bytes ∧
      bytes.length = cursorBytes nowMs resource positions expiresAtMs := by
  refine ⟨(Json.obj (payload lib .cursor resource topic positions.sorted nowMs
    expiresAtMs)).sorted.bytes, ?_, ?_⟩
  · unfold JsonModule.canonicalJsonBytes
    rw [if_pos (portable_payload ids), compact _ floatFree_payload]
  · rw [Json.length_bytes, Json.byteSize_sorted, byteSize_payload nonempty]

/-- A cursor that fits is written. -/
theorem encodeCursor_of_fits (compact : lib.json.Compact)
    (ids : ∀ p ∈ positions.keys, p < maxCursorPartitions) {expiry? : Option ℤ}
    (fits : codec.CursorFits nowMs resource positions (codec.expiry nowMs expiry?)) :
    ∃ cursor, codec.encodeCursor lib nowMs resource topic positions expiry? = .ok cursor ∧
      cursor.value.utf8ByteSize ≤ maxTokenBytes := by
  have hfew : 1 ≤ positions.entries.length ∧ positions.entries.length ≤ maxCursorPartitions :=
    ⟨List.length_pos_iff.mpr fits.nonempty, length_entries_le_of_ids ids⟩
  obtain ⟨bytes, hbytes, hlength⟩ := @canonical_payload lib nowMs resource topic positions
    (codec.expiry nowMs expiry?) compact ids fits.nonempty
  obtain ⟨token, htoken⟩ := TokenCodec.encode_eq codec.codec hbytes
  -- The payload and the key id leave room for the signature and the dots.
  rw [if_pos (hlength ▸ fits.room)] at htoken
  obtain ⟨-, -, -, -, -, hsize⟩ := TokenCodec.encode_ok htoken
  have hexpires : utcFromMs (codec.expiry nowMs expiry?) = .ok (codec.expiry nowMs expiry?) :=
    if_pos fits.expires
  refine ⟨{ value := token, resource, expiresAtMs := codec.expiry nowMs expiry? }, ?_, hsize⟩
  unfold encodeCursor normalizePositions
  rw [if_pos hfew]
  dsimp only
  rw [htoken, hexpires]
  rfl

/-- A cursor that does not fit is refused, with an exception that is no failure. -/
theorem encodeCursor_of_not_fits (compact : lib.json.Compact)
    (ids : ∀ p ∈ positions.keys, p < maxCursorPartitions) {expiry? : Option ℤ}
    (large : ¬codec.CursorFits nowMs resource positions (codec.expiry nowMs expiry?)) :
    codec.encodeCursor lib nowMs resource topic positions expiry? = .error .other := by
  unfold encodeCursor normalizePositions
  by_cases hfew : 1 ≤ positions.entries.length ∧ positions.entries.length ≤ maxCursorPartitions
  swap
  · rw [if_neg hfew]
  have hnonempty : positions.entries ≠ [] := List.length_pos_iff.mp hfew.1
  obtain ⟨bytes, hbytes, hlength⟩ := @canonical_payload lib nowMs resource topic positions
    (codec.expiry nowMs expiry?) compact ids hnonempty
  obtain ⟨token, htoken⟩ := TokenCodec.encode_eq codec.codec hbytes
  rw [if_pos hfew]
  dsimp only
  rw [htoken, hlength]
  by_cases hroom : 4 * cursorBytes nowMs resource positions (codec.expiry nowMs expiry?) ≤
      3 * (4047 - codec.codec.active.keyId.utf8ByteSize)
  · -- what is left is the expiry
    have hexpires : utcFromMs (codec.expiry nowMs expiry?) = .error .other :=
      if_neg fun hexpires => large ⟨hnonempty, hroom, hexpires⟩
    rw [if_pos hroom, hexpires]
    rfl
  · rw [if_neg hroom]
    rfl

end SignedCursorCodec

/-! ### The cursor of a page -/

namespace KafkaRangeReader

/-- The reader writes its cursors with this codec. -/
def WritesWith (reader : KafkaRangeReader Cursor) (lib : CodecLibraries)
    (codec : SignedCursorCodec) : Prop :=
  ∀ nowMs resource topic positions, reader.cursor.encodeCursor nowMs resource topic positions =
    codec.encodeCursor lib nowMs resource topic positions none

/-- A read of a topic with numbered partitions whose loop has come to an end, so that only
the cursor is left to be written. -/
structure LoopEnds {Token : Type} (reader : KafkaRangeReader Token)
    (command : ReadRangeCommand Token) (env : RangeEnv) (bounds : RangeBounds) (s : RangeState) :
    Prop where
  consumer : env.consumer = none
  assign : env.assign = none
  emit : env.emit = none
  close : env.close = none
  resolves : reader.resolve command env = .ok bounds
  numbered : ∀ p ∈ bounds.partitions, p < bounds.partitions.length
  loops : reader.readLoop command bounds { positions := bounds.positions } env.polls = .ok s

variable {Token : Type} {reader : KafkaRangeReader Token} {command : ReadRangeCommand Token}
  {env : RangeEnv} {bounds : RangeBounds} {s : RangeState}

/-- The partitions of the positions have passed the check of their number. -/
theorem LoopEnds.ids (h : LoopEnds reader command env bounds s) :
    ∀ p ∈ s.positions.keys, p < maxCursorPartitions := by
  intro p hp
  obtain ⟨lows, highs, positions, ends, hresolved⟩ := resolve_iff.mp h.resolves
  have hknows : s.Knows bounds.partitions := knows_readLoop h.loops hresolved.knows.1
  have hmem : p ∈ bounds.partitions := (hknows p).mp (Dict.get?_isSome_iff.mpr hp)
  calc p < bounds.partitions.length := h.numbered p hmem
    _ ≤ maxCursorPartitions := hresolved.bounded

theorem LoopEnds.readPage_eq (h : LoopEnds reader command env bounds s) :
    reader.readPage command env =
      (reader.cursor.encodeCursor env.encodedMs command.stream.ref command.stream.topic
        s.positions).map fun nextCursor =>
          { events := s.events, nextCursor, positions := s.positions
            truncated := bounds.Unfinished s.positions } := by
  unfold readPage
  rw [h.resolves]
  dsimp only
  rw [h.assign]
  dsimp only
  rw [h.loops]
  dsimp only
  rw [h.emit]
  cases reader.cursor.encodeCursor env.encodedMs command.stream.ref command.stream.topic
    s.positions <;> rfl

/-- A cursor that is written ends the read with a page. -/
theorem LoopEnds.read_of_ok (h : LoopEnds reader command env bounds s) {cursor : Token}
    (written : reader.cursor.encodeCursor env.encodedMs command.stream.ref command.stream.topic
      s.positions = .ok cursor) : ∃ page, reader.read command env = .ok page := by
  unfold read
  rw [h.consumer]
  dsimp only
  rw [h.close, h.readPage_eq, written]
  exact ⟨_, rfl⟩

/-- A cursor that is refused makes the read fail as unavailable, with what it has read. -/
theorem LoopEnds.read_of_error (h : LoopEnds reader command env bounds s)
    (refused : reader.cursor.encodeCursor env.encodedMs command.stream.ref command.stream.topic
      s.positions = .error .other) :
    reader.read command env = .error (.failure (normalizeKafkaError .other command.contract)) := by
  unfold read
  rw [h.consumer]
  dsimp only
  rw [h.close, h.readPage_eq, refused]
  rfl

end KafkaRangeReader

namespace SignedCursorCodec

variable {lib : CodecLibraries}

/-- **When a topic can be paged.** Let `json.dumps` write compact texts. A cursor of a topic
with up to 128 numbered partitions is written, within the bound on tokens, exactly when it
fits; and a read that has come to the end of its loop returns its page exactly then. -/
theorem cursor_written_iff (compact : lib.json.Compact) (codec : SignedCursorCodec) :
    (∀ (nowMs : ℕ) (resource : ResourceRef) (topic : String) (positions : Dict ℕ ℕ)
      (expiry? : Option ℤ), (∀ p ∈ positions.keys, p < maxCursorPartitions) →
        ((∃ cursor, codec.encodeCursor lib nowMs resource topic positions expiry? = .ok cursor ∧
            cursor.value.utf8ByteSize ≤ maxTokenBytes) ↔
          codec.CursorFits nowMs resource positions (codec.expiry nowMs expiry?))) ∧
    ∀ (reader : KafkaRangeReader Cursor) (command : ReadRangeCommand Cursor) (env : RangeEnv)
      (bounds : RangeBounds) (s : RangeState), reader.WritesWith lib codec →
        reader.LoopEnds command env bounds s →
        ((∃ page, reader.read command env = .ok page) ↔
          codec.CursorFits env.encodedMs command.stream.ref s.positions
            (codec.expiry env.encodedMs none)) := by
  refine ⟨?_, ?_⟩
  · intro nowMs resource topic positions expiry? ids
    refine ⟨?_, encodeCursor_of_fits compact ids⟩
    rintro ⟨cursor, hcursor, -⟩
    -- A cursor that does not fit is refused, and this one was written.
    by_contra hlarge
    rw [encodeCursor_of_not_fits compact ids hlarge] at hcursor
    simp at hcursor
  · intro reader command env bounds s writes ends
    constructor
    · rintro ⟨page, hpage⟩
      by_contra hlarge
      rw [ends.read_of_error ((writes _ _ _ _).trans
        (encodeCursor_of_not_fits compact ends.ids hlarge))] at hpage
      simp at hpage
    · intro fits
      obtain ⟨cursor, hcursor, -⟩ := @encodeCursor_of_fits lib codec env.encodedMs
        command.stream.ref command.stream.topic s.positions compact ends.ids none fits
      exact ends.read_of_ok ((writes _ _ _ _).trans hcursor)

end SignedCursorCodec

/-! ### A long topic -/

namespace Sample

/-- A reader that writes its cursors with the ring, and reads none. -/
def cursorReader : KafkaRangeReader Cursor where
  cursor :=
    { encodeDelivery _ _ c := { value := "", resource := c.subscription, expiresAtMs := 0 }
      decodeDelivery _ _ _ _ _ := .error { kind := .deliveryRejected }
      encodeCursor nowMs resource topic positions :=
        signingCodec.encodeCursor libraries nowMs resource topic positions none
      decodeCursor _ _ _ _ := .error { kind := .invalidCursor }
      decodePosition _ _ _ _ := .error { kind := .invalidCursor }
      groupPositionFingerprint _ _ := .error .other }
  parseEvent := engine.parseEvent

theorem cursorReader_writesWith : cursorReader.WritesWith libraries signingCodec :=
  fun _ _ _ _ => rfl

def readOnce : ReadRangeCommand Cursor where
  stream := orders
  start := none
  stop := none
  cursor := none
  limit := 1

/-- A topic with this many partitions, each with one record, at this offset. -/
def lastRecordsEnv (partitions offset : ℕ) : RangeEnv where
  decodedMs := 100
  encodedMs := 100
  listTopics := .ok [("orders.v1", { partitions := (List.range partitions).map Int.ofNat })]
  watermarks _ := .ok (offset, offset + 1)
  polls := [.record (record 0 offset)]

/-- The positions of the last records, where the first one has been read. -/
def lastPositions (partitions offset : ℕ) : Dict ℕ ℕ where
  entries := (List.range partitions).map fun p => (p, if p = 0 then offset + 1 else offset)
  nodup := by
    rw [List.map_map]
    exact List.map_id _ ▸ List.nodup_range

/-- A read of the last records comes to its end with the first record of partition 0. -/
def comesTo (partitions offset : ℕ) : Bool :=
  match cursorReader.resolve readOnce (lastRecordsEnv partitions offset) with
  | .ok bounds =>
    match cursorReader.readLoop readOnce bounds { positions := bounds.positions }
        (lastRecordsEnv partitions offset).polls with
    | .ok s => bounds.partitions = List.range partitions && s.events.length = 1 &&
        s.positions = lastPositions partitions offset
    | .error _ => false
  | .error _ => false

theorem loopEnds_of_comesTo {partitions offset : ℕ} (h : comesTo partitions offset = true) :
    ∃ bounds s, cursorReader.LoopEnds readOnce (lastRecordsEnv partitions offset) bounds s ∧
      s.events.length = 1 ∧ s.positions = lastPositions partitions offset := by
  unfold comesTo at h
  split at h
  swap
  · exact absurd h Bool.false_ne_true
  -- Both steps of the run return, as its Boolean says.
  next bounds hresolve =>
  split at h
  swap
  · exact absurd h Bool.false_ne_true
  next s hloop =>
  rw [Bool.and_eq_true, Bool.and_eq_true, decide_eq_true_eq, decide_eq_true_eq,
    decide_eq_true_eq] at h
  obtain ⟨⟨hpartitions, hevents⟩, hpositions⟩ := h
  refine ⟨bounds, s, ⟨rfl, rfl, rfl, rfl, hresolve, ?_, hloop⟩, hevents, hpositions⟩
  intro p hp
  rw [hpartitions] at hp ⊢
  rw [List.length_range]
  exact List.mem_range.mp hp

theorem short_comesTo : comesTo 3 41 = true := by decide +kernel

theorem long_comesTo : comesTo 128 (2 ^ 63 - 2) = true := by decide +kernel

/-- A cursor of the ring fits when its payload has up to 3033 bytes. -/
theorem cursorFits_iff {positions : Dict ℕ ℕ} (nonempty : positions.entries ≠ []) :
    signingCodec.CursorFits 100 orders.ref positions (signingCodec.expiry 100 none) ↔
      cursorBytes 100 orders.ref positions 1100 ≤ 3033 := by
  have hkeyId : signingCodec.codec.active.keyId.utf8ByteSize = 2 := by decide
  have hexpiry : signingCodec.expiry 100 none = 1100 := rfl
  rw [hexpiry]
  refine ⟨fun h => ?_, fun h => ⟨nonempty, ?_, by decide⟩⟩
  · have hroom := h.room
    rw [hkeyId] at hroom
    omega
  · rw [hkeyId]
    omega

end Sample

namespace SignedCursorCodec

open Sample

/-- A cursor of three partitions is written and its page returned; one of 128 partitions at
the end of their offsets is not. -/
theorem short_cursor_is_written :
    (∃ cursor, signingCodec.encodeCursor libraries 100 orders.ref "orders.v1"
      (lastPositions 3 41) none = .ok cursor ∧ cursor.value.utf8ByteSize ≤ maxTokenBytes) ∧
    (∃ page, cursorReader.read readOnce (lastRecordsEnv 3 41) = .ok page) ∧
    ¬∃ page, cursorReader.read readOnce (lastRecordsEnv 128 (2 ^ 63 - 2)) = .ok page := by
  obtain ⟨hcursor, hread⟩ := @cursor_written_iff libraries plainJson_compact signingCodec
  have hfits : signingCodec.CursorFits 100 orders.ref (lastPositions 3 41)
      (signingCodec.expiry 100 none) := (cursorFits_iff (by decide)).mpr (by decide)
  obtain ⟨bounds, s, hends, -, hpositions⟩ := loopEnds_of_comesTo short_comesTo
  obtain ⟨bounds', s', hends', -, hpositions'⟩ := loopEnds_of_comesTo long_comesTo
  refine ⟨(hcursor 100 orders.ref "orders.v1" (lastPositions 3 41) none (by decide)).mpr hfits,
    (hread cursorReader readOnce _ bounds s cursorReader_writesWith hends).mpr ?_, fun hpage => ?_⟩
  · rw [hpositions]
    exact hfits
  · have hlarge := (hread cursorReader readOnce _ bounds' s' cursorReader_writesWith hends').mp hpage
    rw [hpositions'] at hlarge
    exact absurd ((cursorFits_iff (by decide)).mp hlarge) (by decide +kernel)

/-- **Long offsets do not fit.** A topic with 128 partitions has one record in each, at the
end of their offsets. A cursor behind the first of them is refused, and the read that has
this record in hand fails as unavailable. -/
theorem long_offsets_do_not_fit :
    (lastPositions 128 (2 ^ 63 - 2)).keys = List.range maxCursorPartitions ∧
    (∀ e ∈ (lastPositions 128 (2 ^ 63 - 2)).entries, e.2 ≤ 2 ^ 63 - 1) ∧
    signingCodec.encodeCursor libraries 100 orders.ref "orders.v1"
      (lastPositions 128 (2 ^ 63 - 2)) none = .error .other ∧
    cursorReader.read readOnce (lastRecordsEnv 128 (2 ^ 63 - 2)) =
      .error (.failure (normalizeKafkaError .other "meridian.streaming.read-range")) := by
  have hlarge : ¬signingCodec.CursorFits 100 orders.ref (lastPositions 128 (2 ^ 63 - 2))
      (signingCodec.expiry 100 none) := fun h =>
    absurd ((cursorFits_iff (by decide)).mp h) (by decide +kernel)
  have hids : ∀ p ∈ (lastPositions 128 (2 ^ 63 - 2)).keys, p < maxCursorPartitions := by
    decide +kernel
  have hrefused : signingCodec.encodeCursor libraries 100 orders.ref "orders.v1"
      (lastPositions 128 (2 ^ 63 - 2)) none = .error .other :=
    encodeCursor_of_not_fits plainJson_compact hids hlarge
  obtain ⟨bounds, s, hends, -, hpositions⟩ := loopEnds_of_comesTo long_comesTo
  refine ⟨by decide +kernel, by decide +kernel, hrefused, ?_⟩
  apply hends.read_of_error
  rw [cursorReader_writesWith, hpositions]
  exact hrefused

end SignedCursorCodec

end MeridianKafka
