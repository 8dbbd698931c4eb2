import MeridianKafka.Framework.Attributes
import MeridianKafka.Framework.Base64
import MeridianKafka.Framework.Stateful
import MeridianKafka.Framework.Utf8
import Mathlib.Data.Set.Basic

/-!
# SCRAM, from the server's side

The salted challenge response authentication mechanism, as a server understands it: how it
reads the two messages of a client, what it answers, and when it takes a proof for a proof.

`Serves` says that a peer is a server that knows the password of a user. It may be any peer;
`respond` is one that serves (`serves_respond`). The hash functions are arbitrary.
-/

namespace Framework

namespace Scram

/-- The functions of a mechanism. -/
structure Hash where
  /-- The size of a digest. -/
  size : ℕ
  hash : List UInt8 → Vector UInt8 size
  /-- A key, and a message. -/
  hmac : List UInt8 → List UInt8 → Vector UInt8 size
  /-- A password, a salt, and how often to iterate. -/
  hi : List UInt8 → List UInt8 → ℕ → List UInt8

/-! ### Keys and signatures -/

def xor {n : ℕ} (a b : Vector UInt8 n) : Vector UInt8 n := a.zipWith (· ^^^ ·) b

theorem xor_xor_cancel {n : ℕ} (a b : Vector UInt8 n) : xor (xor a b) b = a := by
  refine Vector.ext fun i hi => ?_
  rw [xor, xor, Vector.getElem_zipWith, Vector.getElem_zipWith, UInt8.xor_assoc, UInt8.xor_self,
    UInt8.xor_zero]

section Keys

variable (h : Hash)

def clientKey (salted : List UInt8) : Vector UInt8 h.size :=
  h.hmac salted (Utf8.encode "Client Key".toList)

def serverKey (salted : List UInt8) : Vector UInt8 h.size :=
  h.hmac salted (Utf8.encode "Server Key".toList)

/-- What a server keeps of a password. -/
structure Credentials where
  storedKey : Vector UInt8 h.size
  serverKey : Vector UInt8 h.size

def Credentials.ofPassword (password salt : List UInt8) (iterations : ℕ) : Credentials h :=
  let salted := h.hi password salt iterations
  { storedKey := h.hash (clientKey h salted).toList
    serverKey := Scram.serverKey h salted }

variable {h}

/-- What a proof has to be put together with to give the key of the client. -/
def Credentials.clientSignature (credentials : Credentials h) (message : List UInt8) :
    Vector UInt8 h.size :=
  h.hmac credentials.storedKey.toList message

/-- A proof that the client knows the password. -/
def Credentials.verifies (credentials : Credentials h) (message proof : List UInt8) : Bool :=
  proof.length = h.size &&
    h.hash (List.zipWith (· ^^^ ·) proof (credentials.clientSignature message).toList) =
      credentials.storedKey

/-- The proof that the server knows the password. -/
def Credentials.signature (credentials : Credentials h) (message : List UInt8) :
    Vector UInt8 h.size :=
  h.hmac credentials.serverKey.toList message

/-- The proof of a client that knows the password is one. -/
theorem Credentials.verifies_xor (password salt : List UInt8) (iterations : ℕ)
    (message : List UInt8) :
    (ofPassword h password salt iterations).verifies message
      (xor (clientKey h (h.hi password salt iterations))
        ((ofPassword h password salt iterations).clientSignature message)).toList = true := by
  generalize hsalted : h.hi password salt iterations = salted
  generalize hsignature : (ofPassword h password salt iterations).clientSignature message =
    signature
  have hcancel : List.zipWith (· ^^^ ·) (xor (clientKey h salted) signature).toList
      signature.toList = (clientKey h salted).toList := by
    rw [← Vector.toList_zipWith]
    exact congrArg Vector.toList (xor_xor_cancel _ _)
  unfold verifies
  rw [hsignature, hcancel, ofPassword, hsalted, Vector.length_toList]
  simp

end Keys

/-! ### Names -/

/-- A name without commas and equals signs. -/
def escape (name : List Char) : List Char :=
  name.flatMap fun c =>
    if c = ',' then ['=', '2', 'C'] else if c = '=' then ['=', '3', 'D'] else [c]

/-- The name that was escaped. Every equals sign begins an escape. -/
def unescape : List Char → Option (List Char)
  | [] => some []
  | c :: text =>
    if c = '=' then
      match text with
      | '2' :: 'C' :: text => (unescape text).map (',' :: ·)
      | '3' :: 'D' :: text => (unescape text).map ('=' :: ·)
      | _ => none
    else (unescape text).map (c :: ·)

theorem escape_cons (c : Char) (name : List Char) :
    escape (c :: name) =
      (if c = ',' then ['=', '2', 'C'] else if c = '=' then ['=', '3', 'D'] else [c]) ++
        escape name :=
  List.flatMap_cons

theorem unescape_escape (name : List Char) : unescape (escape name) = some name := by
  induction name with
  | nil => rfl
  | cons c name ih =>
    rw [escape_cons]
    split_ifs with hcomma hequals
    · subst hcomma
      show (unescape (escape name)).map (',' :: ·) = _
      rw [ih, Option.map_some]
    · subst hequals
      show (unescape (escape name)).map ('=' :: ·) = _
      rw [ih, Option.map_some]
    · rw [List.singleton_append, unescape.eq_def]
      dsimp only
      rw [if_neg hequals, ih, Option.map_some]

theorem comma_notMem_escape (name : List Char) : ',' ∉ escape name := by
  intro hmem
  obtain ⟨c, -, hc⟩ := List.mem_flatMap.mp hmem
  split_ifs at hc with hcomma hequals
  · exact absurd hc (by decide)
  · exact absurd hc (by decide)
  · exact hcomma (List.mem_singleton.mp hc).symm

/-! ### Messages -/

abbrev Attribute := Attributes.Attribute Char

/-- The attributes of a message. -/
def attributes (text : List Char) : Option (List Attribute) := Attributes.parse ',' '=' text

/-- What a client says first. -/
structure ClientFirst where
  name : List Char
  nonce : List Char
  /-- The message without its header, of which the proofs are taken. -/
  bare : List Char

/-- The first message of a client that asks for no binding to a channel. -/
def readClientFirst (message : List UInt8) : Option ClientFirst := do
  let text ← Utf8.decode message
  if text.take 3 = ['n', ',', ','] then
    let bare := text.drop 3
    match ← attributes bare with
    | [(['n'], escaped), (['r'], nonce)] =>
      let name ← unescape escaped
      if nonce = [] then none else some { name, nonce, bare }
    | _ => none
  else none

/-- The first message without its header. -/
def bare (name nonce : List Char) : List Char :=
  Attributes.render ',' '=' [(['n'], escape name), (['r'], nonce)]

theorem wellFormed_singleton {c : Char} (hequals : c ≠ '=') (hcomma : c ≠ ',') {value : List Char}
    (hvalue : ',' ∉ value) : Attributes.WellFormed ',' '=' ([c], value) where
  equals_notMem := by simpa using hequals.symm
  comma_notMem := by simpa [Attributes.item] using ⟨hcomma.symm, hvalue⟩

theorem attributes_bare (name : List Char) {nonce : List Char} (hnonce : ',' ∉ nonce) :
    attributes (bare name nonce) = some [(['n'], escape name), (['r'], nonce)] := by
  refine Attributes.parse_render (List.cons_ne_nil _ _) fun a ha => ?_
  rcases List.mem_cons.mp ha with rfl | ha
  · exact wellFormed_singleton (by decide) (by decide) (comma_notMem_escape name)
  · obtain rfl := List.mem_singleton.mp ha
    exact wellFormed_singleton (by decide) (by decide) hnonce

/-- **The name of a first message is the name that was escaped**, whatever it is. -/
theorem readClientFirst_bare (name : List Char) {nonce : List Char} (hne : nonce ≠ [])
    (hnonce : ',' ∉ nonce) :
    readClientFirst (Utf8.encode ('n' :: ',' :: ',' :: bare name nonce)) =
      some { name, nonce, bare := bare name nonce } := by
  unfold readClientFirst
  rw [Utf8.decode_encode]
  show (attributes (bare name nonce)).bind _ = _
  rw [attributes_bare name hnonce]
  show (unescape (escape name)).bind _ = _
  rw [unescape_escape]
  exact if_neg hne

/-- The nonce of a message that is read has no comma. -/
theorem comma_notMem_nonce {message : List UInt8} {first : ClientFirst}
    (h : readClientFirst message = some first) : ',' ∉ first.nonce := by
  unfold readClientFirst at h
  obtain ⟨text, -, h⟩ := Option.bind_eq_some_iff.mp h
  split at h
  · obtain ⟨l, hl, h⟩ := Option.bind_eq_some_iff.mp h
    split at h
    · next escaped nonce =>
      obtain ⟨name, -, h⟩ := Option.bind_eq_some_iff.mp h
      split at h
      · exact absurd h (by simp)
      · obtain rfl := Option.some.inj h
        have hwell := (Attributes.parse_eq_some_iff.mp hl).2.1 (['r'], nonce) (by simp)
        exact hwell.comma_notMem_value
    · exact absurd h (by simp)
  · exact absurd h (by simp)

/-- What a client says last. -/
structure ClientFinal where
  nonce : List Char
  proof : List UInt8
  /-- The message without its proof, of which the proofs are taken. -/
  withoutProof : List Char

def withoutProof (nonce : List Char) : List Char :=
  Attributes.render ',' '=' [(['c'], "biws".toList), (['r'], nonce)]

def readClientFinal (message : List UInt8) : Option ClientFinal := do
  match ← attributes (← Utf8.decode message) with
  | [(['c'], binding), (['r'], nonce), (['p'], proof)] =>
    -- the header of the first message, in base64
    if binding = "biws".toList then
      some { nonce, proof := ← Base64.decodePadded proof, withoutProof := withoutProof nonce }
    else none
  | _ => none

theorem attributes_withoutProof {nonce : List Char} (hnonce : ',' ∉ nonce) :
    attributes (withoutProof nonce) = some [(['c'], "biws".toList), (['r'], nonce)] := by
  refine Attributes.parse_render (List.cons_ne_nil _ _) fun a ha => ?_
  rcases List.mem_cons.mp ha with rfl | ha
  · exact wellFormed_singleton (by decide) (by decide) (by decide)
  · obtain rfl := List.mem_singleton.mp ha
    exact wellFormed_singleton (by decide) (by decide) hnonce

theorem readClientFinal_withoutProof {nonce : List Char} (hnonce : ',' ∉ nonce)
    (proof : List UInt8) :
    readClientFinal (Utf8.encode
      (withoutProof nonce ++ ',' :: 'p' :: '=' :: Base64.encodePadded proof)) =
      some { nonce, proof, withoutProof := withoutProof nonce } := by
  have hproof : ',' ∉ Base64.encodePadded proof :=
    fun hmem => (Base64.of_mem_encodePadded hmem).1 rfl
  -- the proof is the last attribute: base64 writes no comma
  have hlast : attributes ('p' :: '=' :: Base64.encodePadded proof) =
      some [(['p'], Base64.encodePadded proof)] := by
    refine Attributes.parse_eq_some_iff.mpr ⟨List.cons_ne_nil _ _, fun a ha => ?_, ?_⟩
    · obtain rfl := List.mem_singleton.mp ha
      exact wellFormed_singleton (by decide) (by decide) hproof
    · rw [Attributes.render_singleton]
      rfl
  unfold readClientFinal
  rw [Utf8.decode_encode]
  show (attributes _).bind _ = _
  rw [attributes, Attributes.parse_append (attributes_withoutProof hnonce) hlast]
  show (Base64.decodePadded _).bind _ = _
  rw [Base64.decodePadded_encodePadded]
  rfl

/-- What a server answers first. -/
structure Challenge where
  nonce : List Char
  salt : List UInt8
  iterations : ℕ
  extensions : List Attribute

def Challenge.attributes (challenge : Challenge) : List Attribute :=
  (['r'], challenge.nonce) :: (['s'], Base64.encodePadded challenge.salt) ::
    (['i'], Nat.toDigits 10 challenge.iterations) :: challenge.extensions

def Challenge.text (challenge : Challenge) : List Char :=
  Attributes.render ',' '=' challenge.attributes

/-- What the proofs are taken of. -/
def authMessage (bare challenge withoutProof : List Char) : List UInt8 :=
  Utf8.encode (bare ++ ',' :: challenge ++ ',' :: withoutProof)

def serverFinal (signature : List UInt8) : List UInt8 :=
  Utf8.encode ('v' :: '=' :: Base64.encodePadded signature)

/-- An answer to a first message: its nonce goes on where that of the client ends, it iterates
as often as is allowed, and its extensions have names of their own. -/
structure Challenge.Answers (challenge : Challenge) (bounds : Set ℕ) (nonce : List Char) :
    Prop where
  extends_nonce : ∃ suffix, suffix ≠ [] ∧ challenge.nonce = nonce ++ suffix
  iterations : challenge.iterations ∈ bounds
  wellFormed : ∀ a ∈ challenge.attributes, Attributes.WellFormed ',' '=' a
  nodup : (challenge.attributes.map Prod.fst).Nodup
  optional : ['m'] ∉ challenge.attributes.map Prod.fst

theorem Challenge.Answers.attributes_text {challenge : Challenge} {bounds : Set ℕ}
    {nonce : List Char} (answers : challenge.Answers bounds nonce) :
    Scram.attributes challenge.text = some challenge.attributes :=
  Attributes.parse_render (List.cons_ne_nil _ _) answers.wellFormed

/-! ### Servers -/

section Servers

variable {ε σ : Type} (h : Hash) (bounds : Set ℕ)

/-- A peer, in a state, answers a last message that goes with a challenge and has a correct proof
with its signature. -/
def Signs (password : List UInt8) (peer : List UInt8 → Stateful ε σ (List UInt8))
    (first : ClientFirst) (challenge : Challenge) (s : σ) : Prop :=
  let credentials := Credentials.ofPassword h password challenge.salt challenge.iterations
  ∀ message final, readClientFinal message = some final → final.nonce = challenge.nonce →
    let transcript := authMessage first.bare challenge.text final.withoutProof
    credentials.verifies transcript final.proof = true →
      ∃ s', (peer message).run s =
        (.ok (serverFinal (credentials.signature transcript).toList), s')

/-- A peer, in a state, is a server that knows the password of a user. It answers the first
message of this user with a challenge, and then a correct proof with its signature. -/
def Serves (name : List Char) (password : List UInt8)
    (peer : List UInt8 → Stateful ε σ (List UInt8)) (s : σ) : Prop :=
  ∀ message first, readClientFirst message = some first → first.name = name →
    ∃ challenge : Challenge, challenge.Answers bounds first.nonce ∧
      ∃ s', (peer message).run s = (.ok (Utf8.encode challenge.text), s') ∧
        Signs h password peer first challenge s'

/-- What a server has of a user, and how it challenges him. -/
structure Account where
  name : List Char
  password : List UInt8
  /-- What it appends to the nonce of the client. -/
  suffix : List Char
  salt : List UInt8
  iterations : ℕ

def Account.challenge (account : Account) (first : ClientFirst) : Challenge where
  nonce := first.nonce ++ account.suffix
  salt := account.salt
  iterations := account.iterations
  extensions := []

/-- A server of one user, which remembers the first message. It raises on everything else. -/
def respond (account : Account) (refused : ε) (message : List UInt8) :
    Stateful ε (Option ClientFirst) (List UInt8) := do
  match ← get with
  | none =>
    match readClientFirst message with
    | none => throw refused
    | some first =>
      if first.name = account.name then
        set (some first)
        return Utf8.encode (account.challenge first).text
      else throw refused
  | some first =>
    let challenge := account.challenge first
    let credentials :=
      Credentials.ofPassword h account.password challenge.salt challenge.iterations
    match readClientFinal message with
    | none => throw refused
    | some final =>
      let transcript := authMessage first.bare challenge.text final.withoutProof
      if final.nonce = challenge.nonce ∧ credentials.verifies transcript final.proof = true then
        return serverFinal (credentials.signature transcript).toList
      else throw refused

section Respond

variable {h bounds}

theorem answers_challenge {account : Account} (hsuffix : account.suffix ≠ [] ∧ ',' ∉ account.suffix)
    (hiterations : account.iterations ∈ bounds) {first : ClientFirst} (hnonce : ',' ∉ first.nonce) :
    (account.challenge first).Answers bounds first.nonce where
  extends_nonce := ⟨account.suffix, hsuffix.1, rfl⟩
  iterations := hiterations
  wellFormed a ha := by
    have hdigits : ',' ∉ Nat.toDigits 10 account.iterations := by
      intro hmem
      have hdigit := Nat.isDigit_of_mem_toDigits (by omega) (by omega) hmem
      exact absurd hdigit (by decide)
    have hall : ',' ∉ first.nonce ++ account.suffix := by
      rw [List.mem_append, not_or]
      exact ⟨hnonce, hsuffix.2⟩
    change a ∈ [_, _, _] at ha
    simp only [List.mem_cons, List.not_mem_nil, or_false] at ha
    -- No value has a comma, so each is read as one attribute.
    rcases ha with rfl | rfl | rfl
    · exact wellFormed_singleton (by decide) (by decide) hall
    · exact wellFormed_singleton (by decide) (by decide) fun hmem =>
        (Base64.of_mem_encodePadded hmem).1 rfl
    · exact wellFormed_singleton (by decide) (by decide) hdigits
  nodup := by
    show [['r'], ['s'], ['i']].Nodup
    decide
  optional := by
    show ['m'] ∉ [['r'], ['s'], ['i']]
    decide

/-- **The server serves its user.** -/
theorem serves_respond {account : Account} (hsuffix : account.suffix ≠ [] ∧ ',' ∉ account.suffix)
    (hiterations : account.iterations ∈ bounds) (refused : ε) :
    Serves h bounds account.name account.password (respond h account refused) none := by
  intro message first hfirst hname
  -- the state between the two messages is the first one
  refine ⟨account.challenge first,
    answers_challenge hsuffix hiterations (comma_notMem_nonce hfirst), some first, ?_, ?_⟩
  · unfold respond
    rw [Stateful.run_bind, Stateful.run_get]
    dsimp only
    rw [hfirst]
    dsimp only
    rw [if_pos hname]
    rfl
  · intro message' final hfinal hnonce transcript hverifies
    refine ⟨some first, ?_⟩
    unfold respond
    rw [Stateful.run_bind, Stateful.run_get]
    dsimp only
    rw [hfinal]
    dsimp only
    rw [if_pos ⟨hnonce, hverifies⟩]
    rfl

end Respond

end Servers

end Scram

end Framework
