import MeridianKafka.Framework.Trace
import MeridianKafka.Probe.ApiVersions
import MeridianKafka.Probe.Session

/-!
# The dialogue of a session

A session is a dialogue of requests and answers. `Exchanged turn w w'` is one turn on the wire:
the frame of the request has been sent, and the frame of the answer has been taken off the
bytes of the peer.

`Dialogue settings random turns versions` is the grammar of the sessions that return. Without
a mechanism it has the one turn of ApiVersions; with PLAIN two more come before it, and with
SCRAM three. A session returns exactly after a dialogue of its grammar (`session_exact`),
which is found by following the text of the program with the rules of `Stateful.Takes`.
-/

namespace MeridianKafka

open Framework

namespace KafkaProtocol

open BigEndian (Fits ofInt toInt)
open Config (Settings)
open Reading (Parses)
open Stateful (Agrees Leads Takes run run_bind run_get run_set)
open KafkaProbeEngine (configurationError isConfigurationError)

/-! ### Frames -/

structure Request where
  key : ℤ
  version : ℤ
  body : List UInt8
  deriving DecidableEq, Repr

namespace Request

/-- What is in front of the body. -/
def header (request : Request) (correlation : ℤ) : List UInt8 :=
  ofInt 2 request.key ++ ofInt 2 request.version ++ ofInt 4 correlation ++
    (ofInt 2 14 ++ utf8 "meridian-probe")

def frame (request : Request) (correlation : ℤ) : List UInt8 :=
  ofInt 4 (request.header correlation ++ request.body).length ++
    (request.header correlation ++ request.body)

/-- The numbers of the frame can be written. -/
structure Fits (request : Request) (id : ℤ) : Prop where
  key : BigEndian.Fits 2 request.key
  version : BigEndian.Fits 2 request.version
  correlation : BigEndian.Fits 4 id
  size : BigEndian.Fits 4 (request.header id ++ request.body).length

end Request

/-- The frame of an answer. -/
def answerFrame (correlation : ℤ) (body : List UInt8) : List UInt8 :=
  ofInt 4 (body.length + 4) ++ (ofInt 4 correlation ++ body)

theorem pack_eq_ok_iff {width : ℕ} {value : ℤ} {bytes : List UInt8} :
    Connection.pack width value = .ok bytes ↔ Fits width value ∧ ofInt width value = bytes := by
  unfold Connection.pack
  split
  · next hfits =>
    rw [Except.ok.injEq]
    exact (and_iff_right hfits).symm
  · next hfits => exact iff_of_false (by simp) fun h => hfits h.1

theorem string_eq_ok_iff {value : String} {bytes : List UInt8} :
    Connection.string value = .ok bytes ↔
      Fits 2 (utf8 value).length ∧ ofInt 2 (utf8 value).length ++ utf8 value = bytes := by
  unfold Connection.string
  simp only [bind_eq_ok_iff, pack_eq_ok_iff, pure, Except.pure, Except.ok.injEq]
  constructor
  · rintro ⟨_, ⟨hfits, rfl⟩, rfl⟩
    exact ⟨hfits, rfl⟩
  · rintro ⟨hfits, rfl⟩
    exact ⟨_, ⟨hfits, rfl⟩, rfl⟩

theorem header_eq_ok_iff {request : Request} {correlation : ℤ} {bytes : List UInt8} :
    Connection.header request.key request.version correlation = .ok bytes ↔
      (Fits 2 request.key ∧ Fits 2 request.version ∧ Fits 4 correlation) ∧
        request.header correlation = bytes := by
  have hlength : (utf8 "meridian-probe").length = 14 := by
    rw [utf8_eq_encode, Utf8.encode_of_ascii (by simp), List.length_map]
    rfl
  have hname : Connection.string "meridian-probe" =
      .ok (ofInt 2 14 ++ utf8 "meridian-probe") := by
    rw [string_eq_ok_iff, hlength]
    exact ⟨by decide, rfl⟩
  unfold Connection.header Request.header
  simp only [bind_eq_ok_iff, pack_eq_ok_iff, hname, Except.ok.injEq, exists_eq_left',
    pure, Except.pure]
  constructor
  · rintro ⟨_, ⟨hkey, rfl⟩, _, ⟨hversion, rfl⟩, _, ⟨hcorrelation, rfl⟩, rfl⟩
    exact ⟨⟨hkey, hversion, hcorrelation⟩, rfl⟩
  · rintro ⟨⟨hkey, hversion, hcorrelation⟩, rfl⟩
    exact ⟨_, ⟨hkey, rfl⟩, _, ⟨hversion, rfl⟩, _, ⟨hcorrelation, rfl⟩, rfl⟩

/-- An answer that is framed is the next frame. -/
theorem nextFrame_answerFrame {correlation : ℤ} (fits : Fits 4 correlation) {body : List UInt8}
    (size : body.length + 4 ≤ 1048576) (rest : List UInt8) :
    nextFrame correlation (answerFrame correlation body ++ rest) = (.ok body, rest) := by
  have hsize : Fits 4 ((body.length : ℤ) + 4) := ⟨by omega, by omega⟩
  have htake : (answerFrame correlation body ++ rest).take 4 = ofInt 4 (body.length + 4) := by
    rw [answerFrame, List.append_assoc, List.take_left' (BigEndian.length_ofInt _ _)]
  have hdrop : (answerFrame correlation body ++ rest).drop 4 =
      ofInt 4 correlation ++ (body ++ rest) := by
    rw [answerFrame, List.append_assoc, List.drop_left' (BigEndian.length_ofInt _ _),
      List.append_assoc]
  have hframe : (ofInt 4 correlation ++ body).length = body.length + 4 := by
    rw [List.length_append, BigEndian.length_ofInt, Nat.add_comm]
  unfold nextFrame
  rw [htake, hdrop, BigEndian.toInt_ofInt hsize]
  rw [if_neg (by simp [answerFrame])]
  dsimp only
  rw [if_neg (by omega), show ((body.length : ℤ) + 4).toNat = body.length + 4 by omega,
    if_neg (by rw [← List.append_assoc, List.length_append]; omega),
    List.take_left' (BigEndian.length_ofInt _ _), BigEndian.toInt_ofInt fits,
    if_neg (not_not.mpr rfl), ← List.append_assoc, List.take_left' hframe, List.drop_left' hframe,
    List.drop_left' (BigEndian.length_ofInt _ _)]

/-! ### Turns -/

/-- A request and the body of its answer. -/
structure Turn where
  request : Request
  answer : List UInt8
  deriving DecidableEq, Repr

/-- The turn takes place: its request is delivered, and its answer is what comes next. -/
structure Exchanged (turn : Turn) (w w' : Wire) : Prop where
  fits : turn.request.Fits (w.correlation + 1)
  delivered : w.sendallRaises w.sent.length = none
  size : turn.answer.length + 4 ≤ 1048576
  incoming : w.incoming = answerFrame (w.correlation + 1) turn.answer ++ w'.incoming
  after : w' =
    { w with
      incoming := w'.incoming
      correlation := w.correlation + 1
      sent := w.sent ++ [turn.request.frame (w.correlation + 1)] }

/-- What goes out for a request, when it does. -/
theorem Wire.send_eq_ok_iff {request : Request} {w w' : Wire} {correlation : ℤ} :
    run (Wire.send request.key request.version request.body) w = (.ok correlation, w') ↔
      (request.Fits (w.correlation + 1) ∧ w.sendallRaises w.sent.length = none) ∧
        correlation = w.correlation + 1 ∧
        w' =
          { w with
            correlation := w.correlation + 1
            sent := w.sent ++ [request.frame (w.correlation + 1)] } := by
  unfold Wire.send
  rw [run_bind, run_get]
  dsimp only
  rw [run_bind, run_set]
  dsimp only
  constructor
  · intro h
    obtain ⟨header, w₁, hheader, h⟩ := Stateful.run_bind_eq_ok_iff.mp h
    obtain ⟨length, w₂, hlength, h⟩ := Stateful.run_bind_eq_ok_iff.mp h
    rw [Stateful.run_ofExcept, Prod.mk.injEq] at hheader hlength
    obtain ⟨hheader, rfl⟩ := hheader
    obtain ⟨hlength, rfl⟩ := hlength
    obtain ⟨⟨hkey, hversion, hcorrelation⟩, rfl⟩ := header_eq_ok_iff.mp hheader
    obtain ⟨hsize, rfl⟩ := pack_eq_ok_iff.mp hlength
    obtain ⟨_, w₃, hsendall, h⟩ := Stateful.run_bind_eq_ok_iff.mp h
    rw [Stateful.run_pure, Prod.mk.injEq, Except.ok.injEq] at h
    obtain ⟨rfl, rfl⟩ := h
    unfold Wire.sendall at hsendall
    rw [run_bind, run_get] at hsendall
    dsimp only at hsendall
    rw [run_bind, run_set] at hsendall
    dsimp only at hsendall
    split at hsendall
    · simp at hsendall
    · next hdelivered =>
      obtain ⟨-, rfl⟩ := Prod.mk.inj hsendall
      exact ⟨⟨⟨hkey, hversion, hcorrelation, hsize⟩, hdelivered⟩, rfl, rfl⟩
  · rintro ⟨⟨fits, hdelivered⟩, rfl, rfl⟩
    have hheader := header_eq_ok_iff.mpr
      ⟨⟨fits.key, fits.version, fits.correlation⟩, rfl⟩
    rw [hheader]
    refine Stateful.run_bind_eq_ok_iff.mpr ⟨_, _, rfl, ?_⟩
    rw [pack_eq_ok_iff.mpr ⟨fits.size, rfl⟩]
    refine Stateful.run_bind_eq_ok_iff.mpr ⟨_, _, rfl, ?_⟩
    refine Stateful.run_bind_eq_ok_iff.mpr ⟨(), _, ?_, rfl⟩
    unfold Wire.sendall
    rw [run_bind, run_get]
    dsimp only
    rw [run_bind, run_set]
    dsimp only
    rw [hdelivered]
    rfl

/-- **A request returns exactly after its turn.** -/
theorem takes_request (request : Request) :
    Takes Exchanged (Wire.request request.key request.version request.body)
      fun turns answer => turns = [⟨request, answer⟩] := by
  intro w answer w'
  unfold Wire.request
  rw [Stateful.run_bind_eq_ok_iff]
  constructor
  · rintro ⟨correlation, w₁, hsend, hreceive⟩
    obtain ⟨⟨hfits, hdelivered⟩, rfl, rfl⟩ := Wire.send_eq_ok_iff.mp hsend
    rw [Wire.run_receive, Prod.mk.injEq] at hreceive
    obtain ⟨hframe, rfl⟩ := hreceive
    obtain ⟨hbytes, hsize⟩ := eq_of_nextFrame (Prod.ext hframe rfl)
    refine ⟨_, rfl, Stateful.leads_singleton.mpr ⟨hfits, hdelivered, hsize, ?_, rfl⟩⟩
    rw [answerFrame, List.append_assoc, List.append_assoc]
    exact hbytes
  · rintro ⟨_, rfl, hleads⟩
    obtain ⟨hfits, hdelivered, hsize, hincoming, hafter⟩ := Stateful.leads_singleton.mp hleads
    refine ⟨_, _, Wire.send_eq_ok_iff.mpr ⟨⟨hfits, hdelivered⟩, rfl, rfl⟩, ?_⟩
    rw [Wire.run_receive]
    dsimp only
    rw [hincoming, nextFrame_answerFrame hfits.correlation hsize]
    exact Prod.ext rfl hafter.symm

/-! ### Answers -/

/-- The bytes are read as a string. A size of -1 stands for no string, which is read as an empty
one. -/
def Spells (bytes value : List UInt8) : Prop :=
  (bytes = ofInt 2 (-1) ∧ value = []) ∨
    (Fits 2 value.length ∧ bytes = ofInt 2 value.length ++ value)

theorem parses_string : Parses string Raised.IsConfigurationError Spells := by
  have htake := Parses.take (β := UInt8)
    (isConfigurationError "Kafka probe response is truncated or invalid")
  refine ((parses_integer 2).bind fun size => .ite (fun _ => .pure []) fun _ =>
    htake size).congr fun l value => ?_
  constructor
  · rintro ⟨_, l, size, rfl, ⟨hfits, rfl⟩, hbranch⟩
    split at hbranch
    · next hnone =>
      obtain ⟨rfl, rfl⟩ := hbranch
      rw [hnone, List.append_nil]
      exact Or.inl ⟨rfl, rfl⟩
    · obtain ⟨rfl, rfl⟩ := hbranch
      exact Or.inr ⟨hfits, rfl⟩
  · rintro (⟨rfl, rfl⟩ | ⟨hfits, rfl⟩)
    · refine ⟨_, [], -1, (List.append_nil _).symm, ⟨by decide, rfl⟩, ?_⟩
      rw [if_pos rfl]
      exact ⟨rfl, rfl⟩
    · refine ⟨_, value, value.length, rfl, ⟨hfits, rfl⟩, ?_⟩
      rw [if_neg (by omega)]
      exact ⟨rfl, rfl⟩

theorem parses_decodeText (bytes : List UInt8) :
    Parses (decodeText bytes) (fun _ => True) fun l value => l = [] ∧ utf8 value = bytes := by
  unfold decodeText
  split
  · next value hvalue =>
    obtain rfl := Utf8.decode_eq_some_iff.mp hvalue
    refine (Parses.pure _).congr fun l read => and_congr_right fun _ => ?_
    rw [utf8_eq_encode]
    constructor
    · rintro rfl
      rw [String.toList_ofList]
    · intro h
      have hdecode := congrArg Utf8.decode h
      rw [Utf8.decode_encode, Utf8.decode_encode, Option.some_inj] at hdecode
      rw [← hdecode, String.ofList_toList]
  · next hnone =>
    refine (Parses.throw trivial).congr fun l read => iff_of_false id ?_
    rintro ⟨-, rfl⟩
    rw [utf8_eq_encode, Utf8.decode_encode] at hnone
    exact Option.some_ne_none _ hnone

theorem parses_text :
    Parses text (fun _ => True) fun bytes value => Spells bytes (utf8 value) := by
  refine ((parses_string.weaken fun _ _ => trivial).bind parses_decodeText).congr fun l value => ?_
  constructor
  · rintro ⟨l₁, _, bytes, rfl, hspells, rfl, rfl⟩
    rwa [List.append_nil]
  · intro hspells
    exact ⟨l, [], utf8 value, (List.append_nil l).symm, hspells, rfl, rfl⟩

theorem parses_readTexts (count : ℕ) :
    Parses (readTexts count) (fun _ => True) fun bytes values =>
      values.length = count ∧ ∃ pieces : List (List UInt8), bytes = pieces.flatten ∧
        List.Forall₂ (fun piece value => Spells piece (utf8 value)) pieces values := by
  induction count with
  | zero =>
    refine (Parses.pure []).congr fun bytes values => ?_
    constructor
    · rintro ⟨rfl, rfl⟩
      exact ⟨rfl, [], rfl, .nil⟩
    · rintro ⟨hlength, pieces, rfl, hpieces⟩
      obtain rfl := List.eq_nil_of_length_eq_zero hlength
      obtain rfl := List.forall₂_nil_right_iff.mp hpieces
      exact ⟨rfl, rfl⟩
  | succ count ih =>
    refine (parses_text.bind fun value => ih.bind fun values =>
      .pure (value :: values)).congr fun bytes all => ?_
    constructor
    · rintro ⟨piece, _, value, rfl, hpiece, _, _, values, rfl, ⟨rfl, pieces, rfl, hpieces⟩,
        rfl, rfl⟩
      rw [List.append_nil]
      exact ⟨rfl, piece :: pieces, rfl, .cons hpiece hpieces⟩
    · rintro ⟨hlength, pieces, rfl, hpieces⟩
      cases hpieces with
      | nil => exact absurd hlength (by simp)
      | @cons piece value pieces values hpiece hpieces =>
        exact ⟨piece, _, value, rfl, hpiece, _, [], values, (List.append_nil _).symm,
          ⟨Nat.succ.inj hlength, pieces, rfl, hpieces⟩, rfl, rfl⟩

/-- The answer to a handshake: an error, and at most a hundred mechanisms. -/
def Offers (answer : List UInt8) (error : ℤ) (mechanisms : List String) : Prop :=
  Fits 2 error ∧ mechanisms.length ≤ 100 ∧ ∃ pieces : List (List UInt8),
    List.Forall₂ (fun piece mechanism => Spells piece (utf8 mechanism)) pieces mechanisms ∧
      answer = ofInt 2 error ++ (ofInt 4 mechanisms.length ++ pieces.flatten)

theorem readMechanisms_eq_ok_iff {answer : List UInt8} {error : ℤ} {mechanisms : List String} :
    (run readMechanisms ⟨answer, 0⟩).1 = .ok (error, mechanisms) ↔
      Offers answer error mechanisms := by
  -- the reading of everything before the check that nothing is left
  have hinteger : ∀ size, Parses (integer size) (fun _ => True) fun l n =>
      Fits size n ∧ l = ofInt size n := fun size => (parses_integer size).weaken fun _ _ => trivial
  have hparses := (hinteger 2).bind fun error => (hinteger 4).bind fun count =>
      .ite (c := ¬(0 ≤ count ∧ count ≤ 100))
        (fun _ => .throw (e := configurationError "Kafka SASL mechanism count is invalid") trivial)
        fun _ => (parses_readTexts count.toNat).bind fun mechanisms => .pure (error, mechanisms)
  have heq : readMechanisms = (do
      let read ← (do
        let error ← integer 2
        let count ← integer 4
        if ¬(0 ≤ count ∧ count ≤ 100) then
          throw (configurationError "Kafka SASL mechanism count is invalid")
        else do
          let mechanisms ← readTexts count.toNat
          return (error, mechanisms))
      finish
      return read) := by
    unfold readMechanisms
    simp only [bind_assoc]
    refine bind_congr fun error => bind_congr fun count => ?_
    split
    · rfl
    · simp only [bind_assoc, pure_bind]
  rw [heq]
  refine ((hparses.run_all trivial answer).1 (error, mechanisms)).trans ?_
  constructor
  · rintro ⟨_, _, error, rfl, ⟨hfits, rfl⟩, _, bytes, count, rfl, ⟨-, rfl⟩, hbranch⟩
    split at hbranch
    · exact hbranch.elim
    next hcount =>
    obtain ⟨hleast, hmost⟩ := not_not.mp hcount
    obtain ⟨_, _, mechanisms, rfl, ⟨hlength, pieces, rfl, hpieces⟩, rfl, hread⟩ := hbranch
    obtain ⟨rfl, rfl⟩ := Prod.mk.inj hread
    have hnat : (mechanisms.length : ℤ) = count := by omega
    refine ⟨hfits, by omega, pieces, hpieces, ?_⟩
    rw [List.append_nil, hnat]
  · rintro ⟨hfits, hmost, pieces, hpieces, rfl⟩
    refine ⟨_, _, error, rfl, ⟨hfits, rfl⟩, _, _, mechanisms.length, rfl,
      ⟨⟨by omega, by omega⟩, rfl⟩, ?_⟩
    rw [if_neg (by omega)]
    exact ⟨_, [], mechanisms, (List.append_nil _).symm,
      ⟨(Int.toNat_natCast _).symm, pieces, rfl, hpieces⟩, rfl, rfl⟩

/-- The answer to a token: an error, a text that is not looked at, and the bytes. -/
def Responds (answer : List UInt8) (error : ℤ) (response : List UInt8) : Prop :=
  Fits 2 error ∧ Fits 4 response.length ∧ ∃ message value, Spells message value ∧
    answer = ofInt 2 error ++ (message ++ (ofInt 4 response.length ++ response))

theorem readAuthentication_eq_ok_iff {answer response : List UInt8} {error : ℤ} :
    (run Connection.readAuthentication ⟨answer, 0⟩).1 = .ok (error, response) ↔
      Responds answer error response := by
  have htake := Parses.take (β := UInt8)
    (isConfigurationError "Kafka probe response is truncated or invalid")
  have hparses := (parses_integer 2).bind fun error => parses_string.bind fun _ =>
    (parses_integer 4).bind fun size => (htake size).bind fun response => .pure (error, response)
  have heq : Connection.readAuthentication = (do
      let read ← (do
        let error ← integer 2
        let _ ← string
        let size ← integer 4
        let response ← take size
        return (error, response))
      finish
      return read) := by
    unfold Connection.readAuthentication
    simp only [bind_assoc, pure_bind]
  rw [heq]
  refine ((hparses.run_all (isConfigurationError _) answer).1 (error, response)).trans ?_
  constructor
  · rintro ⟨_, _, error, rfl, ⟨hfits, rfl⟩, message, _, value, rfl, hspells, _, _, size, rfl,
      ⟨hsize, rfl⟩, _, _, response, rfl, ⟨rfl, rfl⟩, rfl, hread⟩
    obtain ⟨rfl, rfl⟩ := Prod.mk.inj hread
    refine ⟨hfits, hsize, message, value, hspells, ?_⟩
    rw [List.append_nil]
  · rintro ⟨hfits, hsize, message, value, hspells, rfl⟩
    exact ⟨_, _, error, rfl, ⟨hfits, rfl⟩, message, _, value, rfl, hspells, _, _, response.length,
      rfl, ⟨hsize, rfl⟩, response, [], response, (List.append_nil _).symm, ⟨rfl, rfl⟩, rfl, rfl⟩

/-! ### The grammar -/

namespace Request

def saslHandshake (mechanism : String) : Request where
  key := 17
  version := 1
  body := ofInt 2 (utf8 mechanism).length ++ utf8 mechanism

def saslAuthenticate (token : List UInt8) : Request where
  key := 36
  version := 0
  body := ofInt 4 token.length ++ token

def apiVersions : Request where
  key := 18
  version := 0
  body := []

end Request

/-- The token is answered with these bytes. -/
def Answered (token : List UInt8) (turns : List Turn) (response : List UInt8) : Prop :=
  Fits 4 token.length ∧
    ∃ answer, turns = [⟨.saslAuthenticate token, answer⟩] ∧ Responds answer 0 response

section Grammar

variable (hashes : Algorithm → Scram.Hash) (settings : Settings) (random : Vector UInt8 24)

/-- The two turns of SCRAM: the challenge is in order, and the signature is that of a peer that
knows the password. -/
def ScramDialogue (mechanism username password : String) (turns : List Turn) : Prop :=
  let hash := hashes (algorithm mechanism)
  let nonce := tokenUrlsafe random
  let first := clientFirst username nonce
  ∃ server challenge signature before later, turns = before ++ later ∧
    Admissible nonce server challenge ∧
      let final := clientFinal challenge
      let message := utf8 (transcript first server final)
      let proof := (clientProof hash password challenge message).toList
      Answered (utf8 ("n,," ++ first)) before (utf8 server) ∧
        Answered (utf8 (final ++ ",p=" ++ b64encode proof)) later (utf8 "v=" ++ signature) ∧
        b64decode signature = some ((credentials hash password challenge).signature message).toList

/-- The turns in which the broker gets to see the credentials. -/
def LogInDialogue (mechanism username password : String) (turns : List Turn) : Prop :=
  if mechanism = "PLAIN" then
    ('\x00' ∉ username.toList ∧ '\x00' ∉ password.toList) ∧
      ∃ response, Answered (utf8 (plainToken username password)) turns response
  else ScramDialogue hashes random mechanism username password turns

/-- The turns of `_authenticate`: the broker offers the mechanism, and then lets the user in. -/
def Authentication (turns : List Turn) : Prop :=
  match settings.saslMechanism with
  | none => turns = []
  | some mechanism =>
    ∃ username password answer mechanisms later, settings.identity.username = some username ∧
      settings.secrets.password = some password ∧ Fits 2 (utf8 mechanism).length ∧
        turns = ⟨.saslHandshake mechanism, answer⟩ :: later ∧ Offers answer 0 mechanisms ∧
          mechanism ∈ mechanisms ∧ LogInDialogue hashes random mechanism username password later

/-- The turns of a session that returns these versions. -/
def Dialogue (turns : List Turn) (versions : ApiVersions) : Prop :=
  ∃ before ranges, turns = before ++ [⟨.apiVersions, encodeApiVersions ranges⟩] ∧
    Authentication hashes settings random before ∧ WellFormed ranges ∧
      versions.entries = ranges.map ApiRange.entry

end Grammar

theorem takes_authenticate (token : List UInt8) :
    Takes Exchanged (Wire.authenticate token) (Answered token) := by
  have hlength : Takes Exchanged (Stateful.ofExcept (Connection.pack 4 token.length)) _ :=
    .ofExcept _
  have htakes :=
    hlength.bind fun length => (takes_request ⟨36, 0, length ++ token⟩).bind fun frame =>
      (Takes.ofExcept (run Connection.readAuthentication ⟨frame, 0⟩).1).bind fun read =>
        .ite (c := read.1 ≠ 0) (fun _ => .throw authenticationFailed) fun _ => .pure read.2
  refine Takes.congr (x := Wire.authenticate token) htakes fun turns response => ?_
  constructor
  · rintro ⟨_, _, length, rfl, ⟨rfl, hlength⟩, _, _, answer, rfl, rfl, _, _, read, rfl,
      ⟨rfl, hread⟩, hbranch⟩
    obtain ⟨hfits, rfl⟩ := pack_eq_ok_iff.mp hlength
    split at hbranch
    · exact hbranch.elim
    next hzero =>
    obtain ⟨rfl, rfl⟩ := hbranch
    rw [not_not] at hzero
    refine ⟨hfits, answer, rfl, readAuthentication_eq_ok_iff.mp ?_⟩
    rw [hread, ← hzero]
  · rintro ⟨hfits, answer, rfl, hresponds⟩
    refine ⟨[], _, _, rfl, ⟨rfl, pack_eq_ok_iff.mpr ⟨hfits, rfl⟩⟩, _, [], answer, rfl, rfl, [], [],
      (0, response), rfl, ⟨rfl, readAuthentication_eq_ok_iff.mpr hresponds⟩, ?_⟩
    rw [if_neg (by simp)]
    exact ⟨rfl, rfl⟩

section Programs

variable {hashes : Algorithm → Scram.Hash} {settings : Settings} {random : Vector UInt8 24}

theorem takes_scram (mechanism username password : String) :
    Takes Exchanged (scram hashes Wire.authenticate mechanism username password random)
      fun turns _ => ScramDialogue hashes random mechanism username password turns := by
  intro w answer w'
  refine scram_eq_ok_iff.trans ?_
  constructor
  · rintro ⟨server, challenge, w₁, admissible, hfirst, signature, hfinal, hsignature⟩
    obtain ⟨before, hbefore, hleads⟩ := (takes_authenticate _ _ _ _).mp hfirst
    obtain ⟨later, hlater, hleads'⟩ := (takes_authenticate _ _ _ _).mp hfinal
    exact ⟨before ++ later, ⟨server, challenge, signature, before, later, rfl, admissible, hbefore,
      hlater, hsignature⟩, Stateful.leads_append.mpr ⟨w₁, hleads, hleads'⟩⟩
  · rintro ⟨_, ⟨server, challenge, signature, before, later, rfl, admissible, hbefore, hlater,
      hsignature⟩, hleads⟩
    obtain ⟨w₁, hleads, hleads'⟩ := Stateful.leads_append.mp hleads
    exact ⟨server, challenge, w₁, admissible, (takes_authenticate _ _ _ _).mpr ⟨_, hbefore, hleads⟩,
      signature, (takes_authenticate _ _ _ _).mpr ⟨_, hlater, hleads'⟩, hsignature⟩

theorem takes_logIn (mechanism username password : String) :
    Takes Exchanged (logIn hashes Wire.requests random mechanism username password)
      fun turns _ => LogInDialogue hashes random mechanism username password turns := by
  refine (Takes.ite (fun _ => .ite (fun _ => .throw _) fun _ => (takes_authenticate _).bind fun _ =>
    .pure ()) fun _ => takes_scram mechanism username password).congr fun turns _ => ?_
  unfold LogInDialogue
  split
  swap
  · rfl
  constructor
  · intro h
    split at h
    · exact h.elim
    next hnul =>
    obtain ⟨turns, _, response, rfl, hanswered, rfl, -⟩ := h
    rw [List.append_nil]
    exact ⟨not_or.mp hnul, response, hanswered⟩
  · rintro ⟨hnul, response, hanswered⟩
    rw [if_neg (not_or.mpr hnul)]
    exact ⟨turns, [], response, (List.append_nil _).symm, hanswered, rfl, rfl⟩

theorem takes_handshake (mechanism : String) :
    Takes Exchanged (handshake Wire.requests mechanism) fun turns _ =>
      Fits 2 (utf8 mechanism).length ∧ ∃ answer mechanisms,
        turns = [⟨.saslHandshake mechanism, answer⟩] ∧ Offers answer 0 mechanisms ∧
          mechanism ∈ mechanisms := by
  refine ((Takes.ofExcept (Connection.string mechanism)).bind fun body =>
    (takes_request ⟨17, 1, body⟩).bind fun frame =>
      (Takes.ofExcept (run readMechanisms ⟨frame, 0⟩).1).bind fun read =>
        .ite (c := read.1 ≠ 0 ∨ mechanism ∉ read.2) (fun _ => .throw
          (authenticationFailed "Kafka does not offer the selected SASL mechanism"))
          fun _ => .pure ()).congr fun turns _ => ?_
  constructor
  · rintro ⟨_, _, body, rfl, ⟨rfl, hbody⟩, _, _, frame, rfl, rfl, _, _, read, rfl, ⟨rfl, hread⟩,
      hbranch⟩
    obtain ⟨hfits, rfl⟩ := string_eq_ok_iff.mp hbody
    split at hbranch
    · exact hbranch.elim
    next hoffered =>
    obtain ⟨hzero, hmem⟩ := not_or.mp hoffered
    rw [not_not] at hzero hmem
    obtain ⟨rfl, -⟩ := hbranch
    refine ⟨hfits, frame, read.2, rfl, readMechanisms_eq_ok_iff.mp ?_, hmem⟩
    rw [hread, ← hzero]
  · rintro ⟨hfits, frame, mechanisms, rfl, hoffers, hmem⟩
    refine ⟨[], _, _, rfl, ⟨rfl, string_eq_ok_iff.mpr ⟨hfits, rfl⟩⟩, _, [], frame, rfl, rfl, [], [],
      (0, mechanisms), rfl, ⟨rfl, readMechanisms_eq_ok_iff.mpr hoffers⟩, ?_⟩
    rw [if_neg (by simpa using hmem)]
    exact ⟨rfl, rfl⟩

theorem takes_authentication :
    Takes Exchanged (authenticate hashes Wire.requests settings random)
      fun turns _ => Authentication hashes settings random turns := by
  unfold authenticate Authentication
  cases settings.saslMechanism with
  | none => exact (Takes.pure ()).congr fun turns _ => and_iff_left rfl
  | some mechanism =>
  cases settings.identity.username with
  | none =>
    refine ((takes_handshake mechanism).bind fun _ => .throw _).congr fun turns _ => ?_
    simp
  | some username =>
  cases settings.secrets.password with
  | none =>
    refine ((takes_handshake mechanism).bind fun _ => .throw _).congr fun turns _ => ?_
    simp
  | some password =>
  refine ((takes_handshake mechanism).bind fun _ =>
    takes_logIn mechanism username password).congr fun turns _ => ?_
  constructor
  · rintro ⟨_, later, _, rfl, ⟨hfits, answer, mechanisms, rfl, hoffers, hmem⟩, hlogIn⟩
    exact ⟨username, password, answer, mechanisms, later, rfl, rfl, hfits, rfl, hoffers, hmem,
      hlogIn⟩
  · rintro ⟨_, _, answer, mechanisms, later, husername, hpassword, hfits, rfl, hoffers, hmem,
      hlogIn⟩
    obtain rfl := Option.some.inj husername
    obtain rfl := Option.some.inj hpassword
    exact ⟨_, later, (), rfl, ⟨hfits, answer, mechanisms, rfl, hoffers, hmem⟩, hlogIn⟩

/-- The response that the parser takes. -/
theorem parseApiVersions_eq_ok_iff {data : List UInt8} {versions : ApiVersions} :
    parseApiVersions data = .ok versions ↔ ∃ ranges, WellFormed ranges ∧
      data = encodeApiVersions ranges ∧ versions.entries = ranges.map ApiRange.entry :=
  (parses_readApiVersions.run_all (KafkaProbeEngine.isConfigurationError _) data).1 versions

theorem takes_session :
    Takes Exchanged (session hashes Wire.requests settings random)
      (Dialogue hashes settings random) := by
  refine (takes_authentication.bind fun _ => (takes_request .apiVersions).bind fun body =>
    .ofExcept (parseApiVersions body)).congr fun turns versions => ?_
  constructor
  · rintro ⟨before, _, _, rfl, hauthentication, _, _, body, rfl, rfl, rfl, hparse⟩
    obtain ⟨ranges, hwellFormed, rfl, hentries⟩ := parseApiVersions_eq_ok_iff.mp hparse
    exact ⟨before, ranges, rfl, hauthentication, hwellFormed, hentries⟩
  · rintro ⟨before, ranges, rfl, hauthentication, hwellFormed, hentries⟩
    exact ⟨before, _, (), rfl, hauthentication, _, [], _, rfl, rfl, rfl,
      parseApiVersions_eq_ok_iff.mpr ⟨ranges, hwellFormed, rfl, hentries⟩⟩

end Programs

/-! ### Sessions -/

/-- The frames of the requests, the first one with the id that follows. -/
def requestFrames : ℤ → List Turn → List (List UInt8)
  | _, [] => []
  | correlation, turn :: turns =>
    turn.request.frame (correlation + 1) :: requestFrames (correlation + 1) turns

/-- The bytes of the answers. -/
def answerFrames : ℤ → List Turn → List UInt8
  | _, [] => []
  | correlation, turn :: turns =>
    answerFrame (correlation + 1) turn.answer ++ answerFrames (correlation + 1) turns

/-- Turns take their answers off the front, and their requests go out in order. -/
theorem frames_of_leads {turns : List Turn} {w w' : Wire} (h : Leads Exchanged turns w w') :
    w.incoming = answerFrames w.correlation turns ++ w'.incoming ∧
      w'.sent = w.sent ++ requestFrames w.correlation turns := by
  induction turns generalizing w with
  | nil =>
    obtain rfl := Stateful.leads_nil.mp h
    exact ⟨rfl, (List.append_nil _).symm⟩
  | cons turn turns ih =>
    obtain ⟨w₁, hexchanged, hleads⟩ := Stateful.leads_cons.mp h
    obtain ⟨hincoming, hsent⟩ := ih hleads
    have hcorrelation : w₁.correlation = w.correlation + 1 :=
      congrArg Wire.correlation hexchanged.after
    have hout : w₁.sent = w.sent ++ [turn.request.frame (w.correlation + 1)] :=
      congrArg Wire.sent hexchanged.after
    rw [hcorrelation] at hincoming hsent
    constructor
    · rw [hexchanged.incoming, hincoming, answerFrames, List.append_assoc]
    · rw [hsent, hout, requestFrames, List.append_assoc, List.singleton_append]

section Sessions

variable (hashes : Algorithm → Scram.Hash) (settings : Settings) (random : Vector UInt8 24)

variable {hashes settings random} in
/-- Over the socket, a session returns as it does on the plain bytes. -/
theorem run_session_eq_ok_iff {c : Connection} (time : c.BeforeDeadline) {versions : ApiVersions} :
    (run (session hashes Connection.requests settings random) c).1 = .ok versions ↔
      ∃ turns w, Dialogue hashes settings random turns versions ∧
        Leads Exchanged turns c.wire w := by
  have hagrees : Agrees Connection.Carries (session hashes Connection.requests settings random)
      (session hashes Wire.requests settings random) :=
    agrees_session Connection.requests_agree settings random
  rw [(hagrees c c.wire ⟨rfl, time⟩).1]
  constructor
  · intro h
    obtain ⟨turns, hdialogue, hleads⟩ := (takes_session _ _ _).mp (Prod.ext h rfl)
    exact ⟨turns, _, hdialogue, hleads⟩
  · rintro ⟨turns, w, hdialogue, hleads⟩
    exact congrArg Prod.fst ((takes_session _ _ _).mpr ⟨turns, hdialogue, hleads⟩)

/-- **A session returns exactly after a dialogue of its grammar**, for every mechanism, every
peer and arbitrary hash functions. The answers are the frames at the front of what the peer has
sent, under the ids of the requests, and nothing else is read or sent. How the socket splits the
bytes makes no difference, as long as the deadline is not reached. -/
theorem session_exact {c : Connection} (time : c.BeforeDeadline) :
    (∀ versions, (run (session hashes Connection.requests settings random) c).1 = .ok versions ↔
      ∃ turns w, Dialogue hashes settings random turns versions ∧
        Leads Exchanged turns c.wire w) ∧
    (∀ turns versions w, Dialogue hashes settings random turns versions →
      Leads Exchanged turns c.wire w →
        (run (session hashes Connection.requests settings random) c).2.wire = w ∧
          c.stream.incoming = answerFrames c.correlation turns ++ w.incoming ∧
          w.sent = c.stream.sent ++ requestFrames c.correlation turns) ∧
    ∀ c' : Connection, c'.wire = c.wire → c'.BeforeDeadline →
      (run (session hashes Connection.requests settings random) c').1 =
          (run (session hashes Connection.requests settings random) c).1 ∧
        (run (session hashes Connection.requests settings random) c').2.wire =
          (run (session hashes Connection.requests settings random) c).2.wire := by
  have hagrees : Agrees Connection.Carries (session hashes Connection.requests settings random)
      (session hashes Wire.requests settings random) :=
    agrees_session Connection.requests_agree settings random
  obtain ⟨hanswer, hcarries⟩ := hagrees c c.wire ⟨rfl, time⟩
  refine ⟨fun versions => run_session_eq_ok_iff time, fun turns versions w hdialogue hleads => ?_,
    fun c' same time' => ?_⟩
  · have hrun := (takes_session _ _ _).mpr ⟨turns, hdialogue, hleads⟩
    exact ⟨hcarries.wire.trans (congrArg Prod.snd hrun), frames_of_leads hleads⟩
  · obtain ⟨hanswer', hcarries'⟩ := hagrees c' c.wire ⟨same, time'⟩
    exact ⟨hanswer'.trans hanswer.symm, hcarries'.wire.trans hcarries.wire.symm⟩

end Sessions

namespace SessionSample

/-- A Binding with a user name and a password. -/
def settings : Settings where
  resources := .empty
  bindingId := "binding"
  engineProfile := Config.productionEngineProfile
  engineVersion := "4.0"
  bootstrapServers := "broker:9092"
  clientId := "client"
  cursorTtlMs := 60000
  saslMechanism := some "PLAIN"
  identity := { principal := "principal", username := some "user" }
  secrets := { password := some "password" }
  tlsMode := .server

/-- The answers of a broker that has PLAIN, and serves one API. -/
def turns : List Turn :=
  [⟨.saslHandshake "PLAIN", ofInt 2 0 ++ (ofInt 4 1 ++ (ofInt 2 5 ++ utf8 "PLAIN"))⟩,
    ⟨.saslAuthenticate (utf8 (plainToken "user" "password")),
      ofInt 2 0 ++ (ofInt 2 (-1) ++ ofInt 4 0)⟩,
    ⟨.apiVersions, encodeApiVersions [⟨18, 0, 4⟩]⟩]

/-- A new connection to it, with these chunks. -/
def connection (chunk : ℕ → ℕ) : Connection where
  stream := { incoming := answerFrames 0 turns, chunk, monotonicNs := fun _ => 0 }
  deadlineNs := 1

end SessionSample

/-- Byte by byte, the session has the dialogue that it has when the bytes come at once. -/
theorem session_bytewise :
    ∃ versions turns w,
      (run (session ScramSample.hashes Connection.requests SessionSample.settings
        (Vector.replicate 24 0)) (SessionSample.connection fun _ => 1)).1 = .ok versions ∧
      Dialogue ScramSample.hashes SessionSample.settings (Vector.replicate 24 0) turns versions ∧
      Leads Exchanged turns (SessionSample.connection fun _ => 1).wire w := by
  have hwhole : (run (session ScramSample.hashes Connection.requests SessionSample.settings
      (Vector.replicate 24 0)) (SessionSample.connection fun _ => 100)).1.toBool = true := by
    decide +kernel
  obtain ⟨versions, hwhole⟩ := exists_ok_of_toBool hwhole
  obtain ⟨hreturns, -, hchunks⟩ := session_exact ScramSample.hashes SessionSample.settings
    (Vector.replicate 24 0) (c := SessionSample.connection fun _ => 1) fun _ => Int.one_pos
  have hbytes := (hchunks (SessionSample.connection fun _ => 100) rfl fun _ => Int.one_pos).1
  rw [hwhole] at hbytes
  obtain ⟨turns, w, hdialogue, hleads⟩ := (hreturns versions).mp hbytes.symm
  exact ⟨versions, turns, w, hbytes.symm, hdialogue, hleads⟩

end KafkaProtocol

end MeridianKafka
