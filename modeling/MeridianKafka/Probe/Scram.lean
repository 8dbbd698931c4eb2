import MeridianKafka.Canonical
import MeridianKafka.Framework.Dict
import MeridianKafka.Framework.Scram
import MeridianKafka.Text

/-!
# SCRAM over the probe's connection

`_scram` shows the broker that it knows a password, and asks the broker to show the same. It
writes two messages by putting texts together, and it reads the challenge by splitting a text at
its commas and equals signs.

The peer is whatever `connection.authenticate` talks to: any program that answers a token, or
raises. What it raises goes through; it is neither a `ValueError` nor a `KeyError`, which
`_scram` answers with a failure of its own. The functions of `hashlib` and `hmac` are arbitrary.
-/

namespace MeridianKafka

open Framework

namespace KafkaProtocol

/-- The algorithms of `hashlib` that are used. -/
inductive Algorithm
  | sha256
  | sha512
  deriving DecidableEq, Repr

def algorithm (mechanism : String) : Algorithm :=
  if mechanism = "SCRAM-SHA-256" then .sha256 else .sha512

/-- `secrets.token_urlsafe(24)`, of the random bytes. -/
def tokenUrlsafe (random : Vector UInt8 24) : String :=
  String.ofList (Base64.encode random.toList)

/-- `str.replace`, of one character. -/
def replace (text : List Char) (old : Char) (new : List Char) : List Char :=
  text.flatMap fun c => if c = old then new else [c]

/-- The name in the first message. -/
def escaped (username : String) : String :=
  String.ofList (replace (replace username.toList '=' ['=', '3', 'D']) ',' ['=', '2', 'C'])

/-- `base64.b64encode(value).decode()`. -/
def b64encode (value : List UInt8) : String := String.ofList (Base64.encodePadded value)

/-- `base64.b64decode(value, validate=True)`, of bytes. -/
def b64decode (value : List UInt8) : Option (List UInt8) :=
  Base64.decodePadded (Utf8.characters value)

/-- What `_scram` takes from the challenge. -/
structure ScramChallenge where
  /-- `fields["r"]`. -/
  r : String
  salt : List UInt8
  iterations : ℤ

/-- The checks of the challenge. There is none when they end in a `ValueError` or a `KeyError`. -/
def readChallenge (nonce server : String) : Option ScramChallenge := do
  let items ← Attributes.parse ',' '=' server.toList
  let fields := Dict.ofList items
  let iterations ← readInt (String.ofList (← fields.get? ['i']))
  if fields.entries.length ≠ (server.toList.splitOn ',').length ∨ (fields.get? ['m']).isSome then
    none
  else
    let r ← fields.get? ['r']
    if ¬nonce.toList <+: r ∨ r = nonce.toList ∨ ¬(4096 ≤ iterations ∧ iterations ≤ 1000000) then
      none
    else
      let salt ← Base64.decodePadded (← fields.get? ['s'])
      return { r := String.ofList r, salt, iterations }

section Exchange

variable {σ : Type} (hashes : Algorithm → Scram.Hash)
  (authenticate : List UInt8 → Stateful Raised σ (List UInt8))
  (mechanism username password : String) (random : Vector UInt8 24)

def clientFirst (username nonce : String) : String :=
  "n=" ++ escaped username ++ ",r=" ++ nonce

def clientFinal (challenge : ScramChallenge) : String := "c=biws,r=" ++ challenge.r

/-- `_scram`, with the random bytes of its nonce. -/
def scram : Stateful Raised σ Unit := do
  let hash := hashes (algorithm mechanism)
  let nonce := tokenUrlsafe random
  let first := clientFirst username nonce
  match Utf8.decode (← authenticate (utf8 ("n,," ++ first))) with
  | none => throw .other
  | some server =>
    let server := String.ofList server
    match readChallenge nonce server with
    | none => throw (.failure { kind := .kafkaAuthenticationFailed })
    | some challenge =>
      let salted := hash.hi (utf8 password) challenge.salt challenge.iterations.toNat
      let final := clientFinal challenge
      let message := utf8 (first ++ "," ++ server ++ "," ++ final)
      let clientKey := hash.hmac salted (utf8 "Client Key")
      let signature := hash.hmac (hash.hash clientKey.toList).toList message
      let proof := Vector.zipWith (· ^^^ ·) clientKey signature
      let reply ← authenticate (utf8 (final ++ ",p=" ++ b64encode proof.toList))
      let expected := hash.hmac (hash.hmac salted (utf8 "Server Key")).toList message
      if ¬utf8 "v=" <+: reply ∨ b64decode (reply.drop 2) ≠ some expected.toList then
        throw (.failure { kind := .kafkaAuthenticationFailed })
      else return ()

end Exchange

/-! ### Texts -/

/-- The two replacements escape the name: the equals sign of an escaped comma is not replaced. -/
theorem toList_escaped (username : String) :
    (escaped username).toList = Scram.escape username.toList := by
  unfold escaped replace Scram.escape
  rw [String.toList_ofList, List.flatMap_assoc]
  refine List.flatMap_congr fun c _ => ?_
  split_ifs with hequals hcomma hcomma
  · subst hequals
    exact absurd hcomma (by decide)
  · rfl
  · rw [List.flatMap_singleton, if_pos hcomma]
  · rw [List.flatMap_singleton, if_neg hcomma]

theorem toList_clientFirst (username nonce : String) :
    (clientFirst username nonce).toList = Scram.bare username.toList nonce.toList := by
  unfold clientFirst Scram.bare
  rw [Attributes.render_cons_cons, Attributes.render_singleton]
  simp [Attributes.item, toList_escaped]

theorem toList_clientFinal (challenge : ScramChallenge) :
    (clientFinal challenge).toList = Scram.withoutProof challenge.r.toList := by
  unfold clientFinal Scram.withoutProof
  rw [Attributes.render_cons_cons, Attributes.render_singleton]
  simp [Attributes.item]

theorem comma_notMem_tokenUrlsafe (random : Vector UInt8 24) :
    ',' ∉ (tokenUrlsafe random).toList := by
  rw [tokenUrlsafe, String.toList_ofList]
  exact Base64.comma_notMem_encode _

theorem tokenUrlsafe_ne_nil (random : Vector UInt8 24) : (tokenUrlsafe random).toList ≠ [] := by
  have hlength := Base64.length_le_encode random.toList
  rw [Vector.length_toList] at hlength
  rw [tokenUrlsafe, String.toList_ofList]
  exact List.ne_nil_of_length_pos (by omega)

/-! ### The challenge -/

/-- A challenge that is in order, for a client with this nonce: no attribute is there twice and
none is mandatory, its nonce goes on where that of the client ends, and it asks for no more and no
fewer iterations than the client allows. -/
structure Admissible (nonce server : String) (challenge : ScramChallenge) : Prop where
  attributes : ∃ items, Scram.attributes server.toList = some items ∧
    (items.map Prod.fst).Nodup ∧ ['m'] ∉ items.map Prod.fst ∧
      (['r'], challenge.r.toList) ∈ items ∧
        (∃ count, (['i'], count) ∈ items ∧
          readInt (String.ofList count) = some challenge.iterations) ∧
        ∃ salt, (['s'], salt) ∈ items ∧ Base64.decodePadded salt = some challenge.salt
  extends_nonce : ∃ suffix, suffix ≠ "" ∧ challenge.r = nonce ++ suffix
  iterations : 4096 ≤ challenge.iterations ∧ challenge.iterations ≤ 1000000

/-- A nonce that goes on where another one ends, with the texts as the code compares them. -/
theorem extends_nonce_iff {nonce : String} {r : List Char} :
    (∃ suffix, suffix ≠ "" ∧ String.ofList r = nonce ++ suffix) ↔
      nonce.toList <+: r ∧ r ≠ nonce.toList := by
  constructor
  · rintro ⟨suffix, hne, heq⟩
    have hr : r = nonce.toList ++ suffix.toList := by
      rw [← String.toList_append, ← heq, String.toList_ofList]
    refine ⟨⟨_, hr.symm⟩, fun hsame => hne ?_⟩
    rw [hr, List.append_right_eq_self] at hsame
    rw [← String.ofList_toList (s := suffix), hsame]
  · rintro ⟨⟨suffix, rfl⟩, hne⟩
    refine ⟨String.ofList suffix, ?_, ?_⟩
    · rintro hempty
      have hnil := congrArg String.toList hempty
      rw [String.toList_ofList] at hnil
      exact hne (by rw [hnil]; exact List.append_nil _)
    · rw [String.ofList_append, String.ofList_toList]

theorem readChallenge_eq_some_iff {nonce server : String} {challenge : ScramChallenge} :
    readChallenge nonce server = some challenge ↔ Admissible nonce server challenge := by
  unfold readChallenge
  simp only [Option.bind_eq_bind, Option.bind_eq_some_iff, Option.ite_none_left_eq_some,
    Option.pure_def, Option.some_inj]
  constructor
  · rintro ⟨items, hitems, count, hcount, iterations, hread, hchecks, r, hr, hbounds, salt, hsalt,
      bytes, hbytes, rfl⟩
    obtain ⟨hlength, hm⟩ := not_or.mp hchecks
    -- as many fields as items: no name has been written twice
    rw [not_not, Attributes.length_splitOn hitems] at hlength
    have nodup := Dict.length_entries_ofList_iff.mp hlength
    obtain ⟨hpre, hrest⟩ := not_or.mp hbounds
    obtain ⟨hne, hrange⟩ := not_or.mp hrest
    rw [not_not] at hpre hrange
    rw [Dict.get?_ofList_eq_some_iff nodup] at hcount hr hsalt
    rw [Dict.get?_isSome_iff, Dict.mem_keys_ofList] at hm
    refine ⟨⟨items, hitems, nodup, hm, ?_, ⟨count, hcount, hread⟩, salt, hsalt, hbytes⟩,
      extends_nonce_iff.mpr ⟨hpre, hne⟩, hrange⟩
    rwa [String.toList_ofList]
  · rintro ⟨⟨items, hitems, nodup, hm, hr, ⟨count, hcount, hread⟩, salt, hsalt, hbytes⟩, hextends,
      hrange⟩
    rw [← String.ofList_toList (s := challenge.r)] at hextends
    obtain ⟨hpre, hne⟩ := extends_nonce_iff.mp hextends
    rw [← Dict.mem_keys_ofList, ← Dict.get?_isSome_iff] at hm
    rw [← Dict.get?_ofList_eq_some_iff nodup] at hcount hr hsalt
    have hlength := Dict.length_entries_ofList_iff.mpr nodup
    rw [← Attributes.length_splitOn hitems] at hlength
    refine ⟨items, hitems, count, hcount, challenge.iterations, hread,
      not_or.mpr ⟨not_not.mpr hlength, hm⟩, challenge.r.toList, hr,
      not_or.mpr ⟨not_not.mpr hpre, not_or.mpr ⟨hne, not_not.mpr hrange⟩⟩, salt, hsalt,
      challenge.salt, hbytes, ?_⟩
    rw [String.ofList_toList]

/-! ### Returning -/

/-- What a server that knows the password has for a challenge. -/
def credentials (hash : Scram.Hash) (password : String) (challenge : ScramChallenge) :
    Scram.Credentials hash :=
  Scram.Credentials.ofPassword hash (utf8 password) challenge.salt challenge.iterations.toNat

/-- What the signatures are taken of. -/
def transcript (first server final : String) : String := first ++ "," ++ server ++ "," ++ final

/-- The proof of the client, for a transcript. -/
def clientProof (hash : Scram.Hash) (password : String) (challenge : ScramChallenge)
    (message : List UInt8) : Vector UInt8 hash.size :=
  Scram.xor
    (Scram.clientKey hash (hash.hi (utf8 password) challenge.salt challenge.iterations.toNat))
    ((credentials hash password challenge).clientSignature message)

section Returns

variable {σ : Type} (hashes : Algorithm → Scram.Hash)
  (authenticate : List UInt8 → Stateful Raised σ (List UInt8))
  (mechanism username password : String) (random : Vector UInt8 24)

/-- Between two states the peer has proved that it knows the password: it has answered the first
message with a challenge that is in order, and the last one with a signature of the transcript of
all three. -/
def Authenticated (s s' : σ) : Prop :=
  let hash := hashes (algorithm mechanism)
  let nonce := tokenUrlsafe random
  let first := clientFirst username nonce
  ∃ server challenge s₁, Admissible nonce server challenge ∧
    (authenticate (utf8 ("n,," ++ first))).run s = (.ok (utf8 server), s₁) ∧
      let final := clientFinal challenge
      let message := utf8 (transcript first server final)
      let proof := (clientProof hash password challenge message).toList
      ∃ signature, (authenticate (utf8 (final ++ ",p=" ++ b64encode proof))).run s₁ =
          (.ok (utf8 "v=" ++ signature), s') ∧
        b64decode signature = some ((credentials hash password challenge).signature message).toList

variable {hashes authenticate mechanism username password random}

/-- **Returning is having authenticated the peer.** -/
theorem scram_eq_ok_iff {s s' : σ} :
    (scram hashes authenticate mechanism username password random).run s = (.ok (), s') ↔
      Authenticated hashes authenticate mechanism username password random s s' := by
  have hpre : (utf8 "v=").length = 2 := by
    rw [utf8_eq_encode, Utf8.encode_of_ascii (by simp), List.length_map]
    rfl
  unfold scram Authenticated
  rw [Stateful.run_bind_eq_ok_iff]
  constructor
  -- what raises does not return, so that every check has been passed
  · rintro ⟨response, s₁, hfirst, h⟩
    split at h
    · exact absurd h (by simp)
    · next server hserver =>
      obtain rfl := Utf8.decode_eq_some_iff.mp hserver
      dsimp only at h
      split at h
      · exact absurd h (by simp)
      · next challenge hchallenge =>
        obtain ⟨reply, s₂, hfinal, h⟩ := Stateful.run_bind_eq_ok_iff.mp h
        split at h
        · exact absurd h (by simp)
        · next hchecks =>
          obtain ⟨hv, hsignature⟩ := not_or.mp hchecks
          obtain ⟨signature, rfl⟩ := not_not.mp hv
          obtain ⟨-, rfl⟩ := Prod.mk.inj h
          rw [not_not, List.drop_left' hpre] at hsignature
          refine ⟨String.ofList server, challenge, s₁, readChallenge_eq_some_iff.mp hchallenge, ?_,
            signature, hfinal, hsignature⟩
          rwa [utf8_eq_encode (String.ofList server), String.toList_ofList]
  · rintro ⟨server, challenge, s₁, admissible, hfirst, signature, hfinal, hsignature⟩
    refine ⟨_, s₁, hfirst, ?_⟩
    -- the challenge is decoded to the text that the peer has encoded
    rw [utf8_eq_encode server, Utf8.decode_encode]
    dsimp only
    rw [String.ofList_toList, readChallenge_eq_some_iff.mpr admissible]
    dsimp only
    refine Stateful.run_bind_eq_ok_iff.mpr ⟨_, s', hfinal, ?_⟩
    rw [if_neg]
    · rfl
    · rw [not_or, not_not, not_not, List.drop_left' hpre]
      exact ⟨List.prefix_append _ _, hsignature⟩

/-! The two messages and the transcript, as the server reads them. -/

theorem utf8_clientFirst (username nonce : String) :
    utf8 ("n,," ++ clientFirst username nonce) =
      Utf8.encode ('n' :: ',' :: ',' :: Scram.bare username.toList nonce.toList) := by
  rw [utf8_eq_encode, String.toList_append, toList_clientFirst]
  rfl

theorem utf8_clientFinal (challenge : ScramChallenge) (proof : List UInt8) :
    utf8 (clientFinal challenge ++ ",p=" ++ b64encode proof) =
      Utf8.encode (Scram.withoutProof challenge.r.toList ++
        ',' :: 'p' :: '=' :: Base64.encodePadded proof) := by
  rw [utf8_eq_encode, String.toList_append, String.toList_append, toList_clientFinal, b64encode,
    String.toList_ofList, String.toList_ofList, List.append_assoc]
  rfl

theorem utf8_transcript (username nonce server : String) (challenge : ScramChallenge) :
    utf8 (transcript (clientFirst username nonce) server (clientFinal challenge)) =
      Scram.authMessage (Scram.bare username.toList nonce.toList) server.toList
        (Scram.withoutProof challenge.r.toList) := by
  rw [utf8_eq_encode, Scram.authMessage, transcript, ← toList_clientFirst, ← toList_clientFinal]
  simp

/-- What the client takes from a challenge of a server. -/
def ScramChallenge.of (challenge : Scram.Challenge) : ScramChallenge where
  r := String.ofList challenge.nonce
  salt := challenge.salt
  iterations := challenge.iterations

theorem admissible_of_answers {nonce : String} {challenge : Scram.Challenge}
    (answers : challenge.Answers (Set.Icc 4096 1000000) nonce.toList) :
    Admissible nonce (String.ofList challenge.text) (.of challenge) where
  attributes := by
    -- seven digits at most, so `int` reads them
    have small : (Nat.toDigits 10 challenge.iterations).length ≤ 7 := by
      have hmax : challenge.iterations ≤ 1000000 := answers.iterations.2
      exact (Nat.length_toDigits_le_iff (by omega) (by omega)).mpr (by omega)
    rw [String.toList_ofList]
    refine ⟨challenge.attributes, answers.attributes_text, answers.nodup, answers.optional, ?_,
      ⟨_, ?_, readInt_ofList_toDigits (by omega)⟩, _, ?_, Base64.decodePadded_encodePadded _⟩
    · rw [ScramChallenge.of, String.toList_ofList]
      exact List.mem_cons_self
    · exact List.mem_cons_of_mem _ (List.mem_cons_of_mem _ List.mem_cons_self)
    · exact List.mem_cons_of_mem _ List.mem_cons_self
  extends_nonce := by
    obtain ⟨suffix, hne, heq⟩ := answers.extends_nonce
    refine extends_nonce_iff.mpr ⟨⟨suffix, heq.symm⟩, ?_⟩
    rwa [heq, ne_eq, List.append_right_eq_self]
  iterations := by
    obtain ⟨hmin, hmax⟩ := answers.iterations
    exact ⟨Int.ofNat_le.mpr hmin, Int.ofNat_le.mpr hmax⟩

/-- **A server that knows the password is authenticated.** -/
theorem exists_authenticated_of_serves {s : σ}
    (serves : Scram.Serves (hashes (algorithm mechanism)) (Set.Icc 4096 1000000) username.toList
      (utf8 password) authenticate s) :
    ∃ s', Authenticated hashes authenticate mechanism username password random s s' := by
  have hnonce := comma_notMem_tokenUrlsafe random
  -- the server reads the name that the client has escaped
  obtain ⟨challenge, answers, s₁, hfirst, signs⟩ := serves _ _
    (Scram.readClientFirst_bare username.toList (tokenUrlsafe_ne_nil random) hnonce) rfl
  have hr := (answers.wellFormed _ List.mem_cons_self).comma_notMem_value
  -- and takes the proof, which is one of the transcript that the client has as well
  generalize hmessage : Scram.authMessage (Scram.bare username.toList (tokenUrlsafe random).toList)
    challenge.text (Scram.withoutProof challenge.nonce) = message
  have hverifies := Scram.Credentials.verifies_xor (h := hashes (algorithm mechanism))
    (utf8 password) challenge.salt challenge.iterations message
  have hread := Scram.readClientFinal_withoutProof hr
    (clientProof (hashes (algorithm mechanism)) password (.of challenge) message).toList
  obtain ⟨s', hfinal⟩ := signs _ _ hread rfl (by rw [hmessage]; exact hverifies)
  have hr' : (ScramChallenge.of challenge).r.toList = challenge.nonce := String.toList_ofList
  have htranscript := utf8_transcript username (tokenUrlsafe random)
    (String.ofList challenge.text) (.of challenge)
  rw [String.toList_ofList, hr', hmessage] at htranscript
  unfold Authenticated
  refine ⟨s', String.ofList challenge.text, .of challenge, s₁, admissible_of_answers answers, ?_,
    Utf8.encode (Base64.encodePadded ((credentials (hashes (algorithm mechanism)) password
      (.of challenge)).signature message).toList), ?_, ?_⟩
  · rw [utf8_clientFirst, hfirst, utf8_eq_encode, String.toList_ofList]
  · have hreply : Scram.serverFinal = fun signature =>
        utf8 "v=" ++ Utf8.encode (Base64.encodePadded signature) := by
      funext signature
      rw [utf8_eq_encode, ← Utf8.encode_append]
      rfl
    rw [htranscript, utf8_clientFinal, hr', hfinal, hmessage, hreply]
    rfl
  · rw [htranscript, b64decode,
      Utf8.characters_encode fun c hc => (Base64.of_mem_encodePadded hc).2]
    exact Base64.decodePadded_encodePadded _

/-- The attributes of a transcript are those of its three parts. The name is the value of the
first one, and of no other. -/
theorem attributes_transcript {server : String} {items : List Scram.Attribute}
    (hserver : Scram.attributes server.toList = some items) {challenge : ScramChallenge}
    (hr : (['r'], challenge.r.toList) ∈ items) (username : String) (random : Vector UInt8 24) :
    Scram.attributes (transcript (clientFirst username (tokenUrlsafe random)) server
      (clientFinal challenge)).toList =
      some ((['n'], (escaped username).toList) :: (['r'], (tokenUrlsafe random).toList) ::
        (items ++ [(['c'], "biws".toList), (['r'], challenge.r.toList)])) := by
  have hfirst := Scram.attributes_bare username.toList (comma_notMem_tokenUrlsafe random)
  have hcomma := ((Attributes.parse_eq_some_iff.mp hserver).2.1 _ hr).comma_notMem_value
  have hfinal := Scram.attributes_withoutProof hcomma
  have htext : (transcript (clientFirst username (tokenUrlsafe random)) server
      (clientFinal challenge)).toList =
      Scram.bare username.toList (tokenUrlsafe random).toList ++
        ',' :: (server.toList ++ ',' :: Scram.withoutProof challenge.r.toList) := by
    rw [transcript, ← toList_clientFirst, ← toList_clientFinal]
    simp
  rw [htext, toList_escaped]
  exact Attributes.parse_append hfirst (Attributes.parse_append hserver hfinal)

variable (hashes authenticate mechanism username password random)

/-- **The client authenticates the server, and names do not confuse it**, for every user, every
peer and arbitrary hash functions. It returns exactly when the peer has proved that it knows the
password; every server that does know it is authenticated; and a name has no comma once it is
escaped, from which it is read again, so that it is the value of one attribute of the transcript
and the others are those of the nonce, of the challenge and of the last message. -/
theorem scram_authenticates_server :
    (∀ s s', (scram hashes authenticate mechanism username password random).run s = (.ok (), s') ↔
      Authenticated hashes authenticate mechanism username password random s s') ∧
    (∀ s, Scram.Serves (hashes (algorithm mechanism)) (Set.Icc 4096 1000000) username.toList
        (utf8 password) authenticate s →
      ∃ s', (scram hashes authenticate mechanism username password random).run s = (.ok (), s')) ∧
    ',' ∉ (escaped username).toList ∧
    Scram.unescape (escaped username).toList = some username.toList ∧
    ∀ server challenge, Admissible (tokenUrlsafe random) server challenge →
      ∃ items, Scram.attributes server.toList = some items ∧
        Scram.attributes (transcript (clientFirst username (tokenUrlsafe random)) server
          (clientFinal challenge)).toList =
          some ((['n'], (escaped username).toList) :: (['r'], (tokenUrlsafe random).toList) ::
            (items ++ [(['c'], "biws".toList), (['r'], challenge.r.toList)])) := by
  refine ⟨fun s s' => scram_eq_ok_iff, fun s serves => ?_, ?_, ?_,
    fun server challenge admissible => ?_⟩
  · obtain ⟨s', authenticated⟩ := exists_authenticated_of_serves serves
    exact ⟨s', scram_eq_ok_iff.mpr authenticated⟩
  · rw [toList_escaped]
    exact Scram.comma_notMem_escape _
  · rw [toList_escaped]
    exact Scram.unescape_escape _
  · obtain ⟨items, hserver, -, -, hr, -⟩ := admissible.attributes
    exact ⟨items, hserver, attributes_transcript hserver hr username random⟩

end Returns

namespace ScramSample

/-- Functions with digests of one byte: the sum of the bytes, and of the bytes with a key. -/
def hashes (_ : Algorithm) : Scram.Hash where
  size := 1
  hash bytes := Vector.replicate 1 (bytes.foldl (· + ·) 0)
  hmac key message := Vector.replicate 1 ((key ++ message).foldl (· + ·) 0)
  hi password salt iterations := password ++ salt ++ [UInt8.ofNat iterations]

/-- A user with a name that has a comma and an equals sign. -/
def account : Scram.Account where
  name := "test,user=".toList
  password := utf8 "secret"
  suffix := "server".toList
  salt := utf8 "salt"
  iterations := 4096

end ScramSample

theorem scram_respond_returns :
    ∃ s', (scram ScramSample.hashes
        (Scram.respond (ScramSample.hashes .sha256) ScramSample.account Raised.other)
        "SCRAM-SHA-256" "test,user=" "secret" (Vector.replicate 24 0)).run none = (.ok (), s') ∧
      Authenticated ScramSample.hashes
        (Scram.respond (ScramSample.hashes .sha256) ScramSample.account Raised.other)
        "SCRAM-SHA-256" "test,user=" "secret" (Vector.replicate 24 0) none s' := by
  obtain ⟨returns, serves, -⟩ := scram_authenticates_server ScramSample.hashes
    (Scram.respond (ScramSample.hashes .sha256) ScramSample.account Raised.other)
    "SCRAM-SHA-256" "test,user=" "secret" (Vector.replicate 24 0)
  have hsuffix : ScramSample.account.suffix ≠ [] ∧ ',' ∉ ScramSample.account.suffix := by decide
  have hiterations : ScramSample.account.iterations ∈ Set.Icc 4096 1000000 :=
    ⟨Nat.le_refl 4096, by decide⟩
  obtain ⟨s', h⟩ := serves none (Scram.serves_respond hsuffix hiterations _)
  exact ⟨s', h, (returns none s').mp h⟩

end KafkaProtocol

end MeridianKafka
