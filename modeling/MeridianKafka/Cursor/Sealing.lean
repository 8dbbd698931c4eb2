import MeridianKafka.Fingerprints
import MeridianKafka.Range.Paging

/-!
# The signed codec in the engines

The engines are about any `KafkaCursorCodec`. This is the one of a runtime: the texts that it
writes are the signed tokens, and what it reads in a text is what the signed codec reads.

A ring with unique ids gives the positions of its cursors back until they expire
(`engineCodec_sealsCursors`), which is what reading page by page rests on.
-/

namespace MeridianKafka

open Framework TokenPayload

/-- The failure of a reader. A text makes it raise nothing else (`decodeAs_text`). -/
def readerFailure : Raised → Failure
  | .failure failure => failure
  | _ => { kind := .invalidCursor }

namespace SignedCursorCodec

variable (lib : CodecLibraries) (codec : SignedCursorCodec)

/-- The codec of a runtime, on texts. A delivery that does not fit into a token has no text. -/
def engineCodec : KafkaCursorCodec String where
  encodeDelivery nowMs topic c :=
    match codec.encodeDelivery lib nowMs c.subscription c.consumerGroup topic c.partition c.offset
        c.assignmentEpoch c.attempt c.expiresAtMs with
    | .ok token => token.value
    | .error _ => ""
  decodeDelivery nowMs value subscription consumerGroup topic :=
    (codec.decodeDelivery lib nowMs (.text value) subscription consumerGroup topic).mapError
      readerFailure
  encodeCursor nowMs resource topic positions :=
    (codec.encodeCursor lib nowMs resource topic positions none).map Cursor.value
  decodeCursor nowMs value resource topic :=
    ((codec.decodeCursor lib nowMs (.text value) resource topic).map
      CursorCoordinates.positions).mapError readerFailure
  decodePosition nowMs value resource topic :=
    ((codec.decodePosition lib nowMs (.text value) resource topic).map
      fun c => (c.partition, c.offset)).mapError readerFailure
  groupPositionFingerprint := MeridianKafka.groupPositionFingerprint lib

variable {lib codec}

/-- On a text, a reader raises one of its two failures. -/
theorem decodeAs_text {α : Type} {nowMs : ℕ} {token : String} {type : TokenType}
    {expired invalid : Failure} {read : List (String × Json) → Option α} {raised : Raised}
    (h : codec.decodeAs lib nowMs (.ok token) type expired invalid read = .error raised) :
    raised = .failure expired ∨ raised = .failure invalid := by
  unfold decodeAs at h
  dsimp only at h
  split at h
  · exact Or.inl (Except.error.inj h).symm
  · exact Or.inr (Except.error.inj h).symm
  · split at h
    · simp at h
    · exact Or.inr (Except.error.inj h).symm

/-- The active key of a ring with unique ids is found under its id. -/
theorem active_of_create {keys : List TokenKey} {ttlMs : ℕ}
    (created : create keys ttlMs = .ok codec) (unique : (keys.map TokenKey.keyId).Nodup) :
    codec.codec.keys.get? codec.codec.active.keyId = some codec.codec.active ∧ 1 ≤ codec.ttlMs := by
  unfold create at created
  split_ifs at created with httl
  obtain ⟨ring, hring, created⟩ := exists_of_bind_eq_ok created
  obtain rfl := Except.ok.inj created
  refine ⟨TokenCodec.get?_of_create hring unique ?_, httl.1⟩
  unfold TokenCodec.create at hring
  split at hring
  · next active hactive =>
    obtain rfl := Except.ok.inj hring
    have hmem : active ∈ keys.filter (·.active) := hactive ▸ List.mem_singleton_self active
    exact List.mem_of_mem_filter hmem
  · simp at hring

/-- **The cursors of a runtime are sealed.** -/
theorem engineCodec_sealsCursors (inverts : lib.json.Inverts) {keys : List TokenKey} {ttlMs : ℕ}
    (created : create keys ttlMs = .ok codec) (unique : (keys.map TokenKey.keyId).Nodup) :
    (engineCodec lib codec).SealsCursors codec.ttlMs := by
  obtain ⟨hactive, httl⟩ := active_of_create created unique
  intro issuedMs nowMs resource topic positions value hencode hlive
  change (codec.encodeCursor lib issuedMs resource topic positions none).map Cursor.value =
    .ok value at hencode
  have hencoded : codec.encode lib issuedMs (.cursor resource topic positions none) = .ok value :=
    hencode
  obtain ⟨fields, hfields, hwritten⟩ := exists_writtenAs hencoded
  obtain ⟨_, _, hpayload⟩ := hwritten.payload
  have htype : (TokenRequest.cursor resource topic positions none).scope.type = .cursor := rfl
  have hexpiry : (TokenRequest.cursor resource topic positions none).expiry codec issuedMs =
      (issuedMs : ℤ) + codec.ttlMs := rfl
  -- the ring finds its own key, and reads the payload that it has written
  have hitem : codec.codec.decode lib nowMs value .cursor = .ok (Json.sortFields fields) := by
    rw [TokenCodec.decode_eq inverts hfields hactive rfl, hpayload.checkItem_eq, if_pos htype,
      if_neg (by omega), if_neg (by omega)]
  have hread := hwritten.read (by omega) trivial
  obtain ⟨c, hc, hcoordinates⟩ := Option.map_eq_some_iff.mp hread
  have hdecoded : codec.decodeCursor lib nowMs (.text value) resource topic = .ok c :=
    decodeAs_ok_iff.mpr ⟨value, _, rfl, hitem, hc⟩
  obtain rfl := TokenCoordinates.cursor.inj hcoordinates
  refine ⟨positions.sorted, ?_, fun p => Dict.get?_sorted positions p⟩
  change ((codec.decodeCursor lib nowMs (.text value) resource topic).map
    CursorCoordinates.positions).mapError readerFailure = _
  rw [hdecoded]
  rfl

end SignedCursorCodec

end MeridianKafka
