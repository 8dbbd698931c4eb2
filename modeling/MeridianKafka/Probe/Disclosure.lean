import MeridianKafka.Probe.Dialogue

/-!
# What a session discloses

Two sessions that differ in their credentials only, with the same broker, are the same until the
broker has offered the mechanism. With SCRAM they stay the same until it has also sent a
challenge that is in order, and they part only if the two passwords have different salted hashes
for this challenge (`session_discloses`). So a broker that cannot authenticate the user, or one
that asks for too little work, learns nothing about the password.
-/

namespace MeridianKafka

open Framework

namespace KafkaProtocol

open BigEndian (ofInt)
open Config (Settings)
open Stateful (Agrees Leads Takes run run_bind run_bind_of_error run_bind_of_ok)

/-! ### The turns of a run -/

/-- A program on a connection that has returned has taken its turns on the wire. -/
theorem leads_of_run {α : Type} {x : Exchange α} {y : Wire.Exchange α} {G : List Turn → α → Prop}
    (agrees : Agrees Connection.Carries x y) (takes : Takes Exchanged y G) {c c' : Connection}
    {a : α} (time : c.BeforeDeadline) (h : run x c = (.ok a, c')) :
    c'.BeforeDeadline ∧ ∃ turns, G turns a ∧ Leads Exchanged turns c.wire c'.wire := by
  obtain ⟨hanswer, hcarries⟩ := agrees c c.wire ⟨rfl, time⟩
  rw [h] at hanswer hcarries
  exact ⟨hcarries.time, (takes _ _ _).mp (Prod.ext hanswer.symm hcarries.wire.symm)⟩

/-! ### Two passwords -/

section Scram

variable {σ : Type} {hashes : Algorithm → Scram.Hash}
  {authenticate : List UInt8 → Stateful Raised σ (List UInt8)}

/-- SCRAM looks at a password only through its salted hash, for a challenge that is in order. -/
theorem run_scram_congr {mechanism username password password' : String}
    {random : Vector UInt8 24} {s : σ}
    (same : ∀ server challenge s₁,
      run (authenticate (utf8 ("n,," ++ clientFirst username (tokenUrlsafe random)))) s =
        (.ok (utf8 server), s₁) →
      Admissible (tokenUrlsafe random) server challenge →
        (hashes (algorithm mechanism)).hi (utf8 password) challenge.salt
            challenge.iterations.toNat =
          (hashes (algorithm mechanism)).hi (utf8 password') challenge.salt
            challenge.iterations.toNat) :
    run (scram hashes authenticate mechanism username password random) s =
      run (scram hashes authenticate mechanism username password' random) s := by
  unfold scram
  dsimp only
  rw [run_bind, run_bind]
  generalize hfirst :
    run (authenticate (utf8 ("n,," ++ clientFirst username (tokenUrlsafe random)))) s = outcome
  obtain ⟨raised | response, s₁⟩ := outcome
  · rfl
  dsimp only
  split
  · rfl
  next server hserver =>
  obtain rfl := Utf8.decode_eq_some_iff.mp hserver
  split
  · rfl
  next challenge hchallenge =>
  have hresponse : utf8 (String.ofList server) = Utf8.encode server := by
    rw [utf8_eq_encode, String.toList_ofList]
  rw [same (String.ofList server) challenge s₁ (by rw [hfirst, hresponse])
    (readChallenge_eq_some_iff.mp hchallenge)]

end Scram

/-! ### Two sessions -/

section Sessions

variable (hashes : Algorithm → Scram.Hash) (random : Vector UInt8 24)

/-- The broker answers the handshake, and offers the mechanism. -/
structure Offered (mechanism : String) (c : Connection) (offer : Turn) : Prop where
  request : offer.request = .saslHandshake mechanism
  offers : ∃ mechanisms, Offers offer.answer 0 mechanisms ∧ mechanism ∈ mechanisms
  takes_place : ∃ w, Leads Exchanged [offer] c.wire w

/-- The broker has offered the mechanism, and sends a challenge that is in order. -/
def Challenged (username : String) (c : Connection) (offer : Turn)
    (challenge : ScramChallenge) : Prop :=
  ∃ first server w,
    first.request = .saslAuthenticate
      (utf8 ("n,," ++ clientFirst username (tokenUrlsafe random))) ∧
    Responds first.answer 0 (utf8 server) ∧
    Admissible (tokenUrlsafe random) server challenge ∧
    Leads Exchanged [offer, first] c.wire w

variable {settings settings' : Settings} {c : Connection}

/-- Sessions with one mechanism are the same up to the handshake, and they part only if the broker
has offered the mechanism. -/
theorem handshake_of_ne (same : settings.saslMechanism = settings'.saslMechanism)
    (differ : run (authenticate hashes Connection.requests settings random) c ≠
      run (authenticate hashes Connection.requests settings' random) c) :
    ∃ mechanism c₁, settings.saslMechanism = some mechanism ∧
      run (handshake Connection.requests mechanism) c = (.ok (), c₁) := by
  unfold authenticate at differ
  rw [← same] at differ
  cases hmechanism : settings.saslMechanism with
  | none =>
    rw [hmechanism] at differ
    exact absurd rfl differ
  | some mechanism =>
  rw [hmechanism] at differ
  dsimp only at differ
  rcases hrun : run (handshake Connection.requests mechanism) c with ⟨raised | ⟨⟩, c₁⟩
  · rw [run_bind_of_error hrun, run_bind_of_error hrun] at differ
    exact absurd rfl differ
  · exact ⟨mechanism, c₁, rfl, hrun⟩

/-- With SCRAM, two passwords are told apart only under a challenge that is in order. -/
theorem challenge_of_ne {mechanism username password password' : String}
    (scram : mechanism ≠ "PLAIN") (time : c.BeforeDeadline)
    (differ : run (logIn hashes Connection.requests random mechanism username password) c ≠
      run (logIn hashes Connection.requests random mechanism username password') c) :
    ∃ first server challenge w,
      first.request = .saslAuthenticate
        (utf8 ("n,," ++ clientFirst username (tokenUrlsafe random))) ∧
      Responds first.answer 0 (utf8 server) ∧
      Admissible (tokenUrlsafe random) server challenge ∧
      Leads Exchanged [first] c.wire w ∧
      (hashes (algorithm mechanism)).hi (utf8 password) challenge.salt
          challenge.iterations.toNat ≠
        (hashes (algorithm mechanism)).hi (utf8 password') challenge.salt
          challenge.iterations.toNat := by
  unfold logIn at differ
  rw [if_neg scram, if_neg scram] at differ
  by_contra hnone
  refine differ (run_scram_congr fun server challenge c₁ hfirst admissible => ?_)
  by_contra hne
  obtain ⟨-, turns, ⟨-, answer, rfl, hresponds⟩, hleads⟩ :=
    leads_of_run (Connection.agrees_authenticate _) (takes_authenticate _) time hfirst
  exact hnone ⟨_, server, challenge, _, rfl, hresponds, admissible, hleads, hne⟩

/-- **A session discloses the credentials only to a broker that has earned it.** Two sessions with
one mechanism, whatever their credentials are, do the same with the same broker until it offers
the mechanism. With SCRAM they do the same with different passwords until the broker has sent a
challenge that extends the nonce of the client and asks for enough iterations, and if the salted
hashes of the passwords for this challenge are one, then they never part. -/
theorem session_discloses (same : settings.saslMechanism = settings'.saslMechanism)
    (time : c.BeforeDeadline)
    (differ : run (session hashes Connection.requests settings random) c ≠
      run (session hashes Connection.requests settings' random) c) :
    ∃ mechanism offer, settings.saslMechanism = some mechanism ∧ Offered mechanism c offer ∧
      (mechanism ≠ "PLAIN" → ∀ username password password',
        settings.identity.username = some username →
        settings'.identity.username = some username →
        settings.secrets.password = some password →
        settings'.secrets.password = some password' →
          ∃ challenge, Challenged random username c offer challenge ∧
            (hashes (algorithm mechanism)).hi (utf8 password) challenge.salt
                challenge.iterations.toNat ≠
              (hashes (algorithm mechanism)).hi (utf8 password') challenge.salt
                challenge.iterations.toNat) := by
  -- what comes after the authentication does not look at the settings
  have hauthenticate : run (authenticate hashes Connection.requests settings random) c ≠
      run (authenticate hashes Connection.requests settings' random) c := by
    intro heq
    refine differ ?_
    unfold session
    rw [run_bind, run_bind, heq]
  obtain ⟨mechanism, c₁, hmechanism, hrun⟩ :=
    handshake_of_ne hashes random same hauthenticate
  obtain ⟨htime, turns, ⟨-, answer, mechanisms, rfl, hoffers, hmem⟩, hleads⟩ :=
    leads_of_run (agrees_handshake Connection.requests_agree mechanism) (takes_handshake mechanism)
      time hrun
  refine ⟨mechanism, ⟨.saslHandshake mechanism, answer⟩, hmechanism,
    ⟨rfl, ⟨mechanisms, hoffers, hmem⟩, _, hleads⟩, ?_⟩
  intro scram username password password' husername husername' hpassword hpassword'
  unfold authenticate at hauthenticate
  rw [← same, hmechanism, husername, husername', hpassword, hpassword'] at hauthenticate
  dsimp only at hauthenticate
  rw [run_bind_of_ok hrun, run_bind_of_ok hrun] at hauthenticate
  obtain ⟨first, server, challenge, w, hrequest, hresponds, admissible, hfirst, hne⟩ :=
    challenge_of_ne hashes random scram htime hauthenticate
  have hturns : Leads Exchanged ([⟨.saslHandshake mechanism, answer⟩] ++ [first]) c.wire w :=
    Stateful.leads_append.mpr ⟨_, hleads, hfirst⟩
  exact ⟨challenge, ⟨first, server, w, hrequest, hresponds, admissible, hturns⟩, hne⟩

end Sessions

namespace DisclosureSample

/-- A Binding with SCRAM and this password. -/
def settings (password : String) : Settings :=
  { SessionSample.settings with
    saslMechanism := some "SCRAM-SHA-256"
    secrets := { password := some password } }

def random : Vector UInt8 24 := Vector.replicate 24 0

def challenge : List UInt8 := utf8 ("r=" ++ tokenUrlsafe random ++ "server,s=c2FsdA==,i=4096")

/-- A connection to a broker that has SCRAM, sends a challenge, and then closes its side. -/
def connection : Connection where
  stream :=
    { incoming :=
        answerFrames 0
          [⟨.saslHandshake "SCRAM-SHA-256",
              ofInt 2 0 ++ (ofInt 4 1 ++ (ofInt 2 13 ++ utf8 "SCRAM-SHA-256"))⟩,
            ⟨.saslAuthenticate (utf8 ("n,," ++ clientFirst "user" (tokenUrlsafe random))),
              ofInt 2 0 ++ (ofInt 2 (-1) ++ (ofInt 4 challenge.length ++ challenge))⟩]
      chunk := fun _ => 100
      monotonicNs := fun _ => 0 }
  deadlineNs := 1

end DisclosureSample

theorem scram_discloses :
    ∃ offer challenge, Offered "SCRAM-SHA-256" DisclosureSample.connection offer ∧
      Challenged DisclosureSample.random "user" DisclosureSample.connection offer challenge := by
  -- what is sent shows the password
  have hsent : (run (session ScramSample.hashes Connection.requests
        (DisclosureSample.settings "secret") DisclosureSample.random)
        DisclosureSample.connection).2.stream.sent ≠
      (run (session ScramSample.hashes Connection.requests
        (DisclosureSample.settings "guess") DisclosureSample.random)
        DisclosureSample.connection).2.stream.sent := by
    decide +kernel
  have hsame : (DisclosureSample.settings "secret").saslMechanism =
      (DisclosureSample.settings "guess").saslMechanism := rfl
  obtain ⟨mechanism, offer, hmechanism, hoffered, hchallenged⟩ :=
    session_discloses ScramSample.hashes DisclosureSample.random hsame (fun _ => Int.one_pos)
      fun heq => hsent (congrArg (fun x => x.2.stream.sent) heq)
  obtain rfl : "SCRAM-SHA-256" = mechanism := Option.some.inj hmechanism
  obtain ⟨challenge, hchallenge, -⟩ :=
    hchallenged (by decide) "user" "secret" "guess" rfl rfl rfl rfl
  exact ⟨offer, challenge, hoffered, hchallenge⟩

end KafkaProtocol

end MeridianKafka
