import MeridianKafka.Probe.Dialogue

/-!
# What a session sends

Whatever the broker, the network and the clock do, a session sends nothing but requests of its
own, one frame each, and it sends them in the order that the protocol has: the handshake, the
tokens of the mechanism, ApiVersions (`session_sends`). `Follows` is this order as an automaton
over the stages of a session.

The rules of `Stateful.Moves` carry it through the program: a primitive either sends nothing or
is the request of the next stage.
-/

namespace MeridianKafka

open Framework

namespace KafkaProtocol

open BigEndian (Fits ofInt)
open Config (Settings)
open Stateful (Composes Leads Moves run run_bind run_bind_of_error run_bind_of_ok)

/-! ### Frames that have been sent -/

/-- Between two states of a connection these requests have been sent, and nothing else. Their
correlation ids are new, and they rise. -/
structure Sent (requests : List Request) (c c' : Connection) : Prop where
  later : c.correlation ≤ c'.correlation
  frames : ∃ numbered : List (ℤ × Request), numbered.map Prod.snd = requests ∧
    (numbered.map Prod.fst).Pairwise (· < ·) ∧
    (∀ x ∈ numbered, c.correlation < x.1 ∧ x.1 ≤ c'.correlation ∧ x.2.Fits x.1) ∧
    c'.stream.sent = c.stream.sent ++ numbered.map fun x => x.2.frame x.1

theorem sent_nil {c c' : Connection} (later : c.correlation ≤ c'.correlation)
    (hsent : c'.stream.sent = c.stream.sent) : Sent [] c c' :=
  ⟨later, [], rfl, .nil, by simp, by simp [hsent]⟩

theorem composes_sent : Composes Sent where
  refl c := sent_nil le_rfl rfl
  append := by
    rintro _ _ c c₁ c' ⟨hlater, numbered, rfl, hrise, hnumbered, hsent⟩
      ⟨hlater', numbered', rfl, hrise', hnumbered', hsent'⟩
    refine ⟨hlater.trans hlater', numbered ++ numbered', List.map_append, ?_, ?_, ?_⟩
    · rw [List.map_append, List.pairwise_append]
      refine ⟨hrise, hrise', ?_⟩
      intro id hid id' hid'
      obtain ⟨x, hx, rfl⟩ := List.mem_map.mp hid
      obtain ⟨x', hx', rfl⟩ := List.mem_map.mp hid'
      exact (hnumbered x hx).2.1.trans_lt (hnumbered' x' hx').1
    · intro x hx
      rcases List.mem_append.mp hx with hx | hx
      · obtain ⟨hlow, hhigh, hfits⟩ := hnumbered x hx
        exact ⟨hlow, hhigh.trans hlater', hfits⟩
      · obtain ⟨hlow, hhigh, hfits⟩ := hnumbered' x hx
        exact ⟨hlater.trans_lt hlow, hhigh, hfits⟩
    · rw [hsent', hsent, List.map_append, List.append_assoc]

/-! ### The primitives -/

section Primitives

variable {τ : Type} {Step : Request → τ → τ → Prop} {a b : τ}

/-- A program that neither sends nor counts leaves every stage where it is. -/
theorem moves_of_quiet {α : Type} {x : Exchange α}
    (quiet : ∀ c, (run x c).2.correlation = c.correlation ∧
      (run x c).2.stream.sent = c.stream.sent) : Moves Sent Step a a x :=
  fun c => ⟨[], a, sent_nil (quiet c).1.ge (quiet c).2, rfl, fun _ _ => rfl⟩

theorem quiet_timeout (c : Connection) :
    (run Connection.timeout c).2.correlation = c.correlation ∧
      (run Connection.timeout c).2.stream.sent = c.stream.sent := by
  unfold Connection.timeout
  rw [run_bind, Stateful.run_get]
  dsimp only
  rw [run_bind, Stateful.run_set]
  dsimp only
  split
  · exact ⟨rfl, rfl⟩
  · exact ⟨rfl, rfl⟩

theorem moves_timeout : Moves Sent Step a a Connection.timeout := moves_of_quiet quiet_timeout

theorem moves_recv (size : ℕ) : Moves Sent Step a a (Connection.recv size) :=
  moves_of_quiet fun _ => ⟨rfl, rfl⟩

theorem moves_readLoop (fuel size : ℕ) (chunks : List UInt8) :
    Moves Sent Step a a (Connection.readLoop fuel size chunks) := by
  induction fuel generalizing chunks with
  | zero => exact .pure composes_sent _
  | succ fuel ih =>
    refine .ite (fun _ => .bind composes_sent moves_timeout fun _ =>
      .bind composes_sent (moves_recv _) fun chunk => ?_) fun _ => .pure composes_sent _
    exact .ite (fun _ => .throw composes_sent _) fun _ => ih _

theorem moves_read (size : ℕ) : Moves Sent Step a a (Connection.read size) :=
  moves_readLoop size size []

/-- What is handed to `sendall` counts as sent, also when it raises. -/
theorem exists_run_sendall (payload : List UInt8) (c : Connection) :
    ∃ outcome, run (Connection.sendall payload) c =
      (outcome, { c with stream := { c.stream with sent := c.stream.sent ++ [payload] } }) := by
  unfold Connection.sendall
  rw [run_bind, Stateful.run_get]
  dsimp only
  rw [run_bind, Stateful.run_set]
  dsimp only
  split
  · exact ⟨_, rfl⟩
  · exact ⟨_, rfl⟩

/-- A request is sent whole, or not at all. -/
theorem moves_send (request : Request) (step : Step request a b) :
    Moves Sent Step a b (Connection.send request.key request.version request.body) := by
  intro c
  have later : c.correlation ≤ c.correlation + 1 := by omega
  unfold Connection.send
  rw [run_bind, Stateful.run_get]
  dsimp only
  rw [run_bind, Stateful.run_set]
  dsimp only
  cases hheader : Connection.header request.key request.version (c.correlation + 1) with
  | error raised =>
    rw [run_bind_of_error (Stateful.run_ofExcept _ _)]
    exact ⟨[], a, sent_nil later rfl, rfl, fun _ h => absurd h (by simp)⟩
  | ok header =>
  obtain ⟨⟨hkey, hversion, hcorrelation⟩, rfl⟩ := header_eq_ok_iff.mp hheader
  rw [run_bind_of_ok (Stateful.run_ofExcept _ _)]
  -- the clock is looked at before anything is sent
  obtain ⟨hsame, hsent⟩ := quiet_timeout { c with correlation := c.correlation + 1 }
  rcases htimeout : run Connection.timeout { c with correlation := c.correlation + 1 } with
    ⟨raised | ⟨⟩, c₁⟩
  · rw [htimeout] at hsame hsent
    rw [run_bind_of_error htimeout]
    exact ⟨[], a, sent_nil (later.trans hsame.ge) hsent, rfl, fun _ h => absurd h (by simp)⟩
  rw [htimeout] at hsame hsent
  rw [run_bind_of_ok htimeout]
  cases hlength : Connection.pack 4
      ((request.header (c.correlation + 1) ++ request.body).length : ℤ) with
  | error raised =>
    rw [run_bind_of_error (Stateful.run_ofExcept _ _)]
    exact ⟨[], a, sent_nil (later.trans hsame.ge) hsent, rfl, fun _ h => absurd h (by simp)⟩
  | ok length =>
  obtain ⟨hsize, rfl⟩ := pack_eq_ok_iff.mp hlength
  rw [run_bind_of_ok (Stateful.run_ofExcept _ _)]
  obtain ⟨outcome, hsendall⟩ := exists_run_sendall (request.frame (c.correlation + 1)) c₁
  have hframe : Sent [request] c
      { c₁ with stream :=
        { c₁.stream with sent := c₁.stream.sent ++ [request.frame (c.correlation + 1)] } } := by
    refine ⟨later.trans hsame.ge, [(c.correlation + 1, request)], rfl, List.pairwise_singleton _ _,
      ?_, congrArg (· ++ _) hsent⟩
    rintro x hx
    obtain rfl := List.mem_singleton.mp hx
    exact ⟨by dsimp only; omega, hsame.ge, hkey, hversion, hcorrelation, hsize⟩
  refine ⟨[request], b, ?_, Stateful.leads_singleton.mpr step, fun _ _ => rfl⟩
  show Sent [request] c (run (Connection.sendall (request.frame (c.correlation + 1)) >>=
    fun _ => pure (c.correlation + 1)) c₁).2
  cases outcome with
  | error raised =>
    rw [run_bind_of_error hsendall]
    exact hframe
  | ok value =>
    rw [run_bind_of_ok hsendall]
    exact hframe

theorem moves_request (request : Request) (step : Step request a b) :
    Moves Sent Step a b (Connection.request request.key request.version request.body) := by
  refine .bind composes_sent (moves_send request step) fun correlation => ?_
  refine .bind composes_sent (moves_read 4) fun bytes => ?_
  exact .ite (fun _ => .throw composes_sent _) fun _ =>
    .bind composes_sent (moves_read _) fun _ => .ofExcept composes_sent _

theorem moves_authenticate (token : List UInt8) (step : Step (.saslAuthenticate token) a b) :
    Moves Sent Step a b (Connection.authenticate token) := by
  intro c
  unfold Connection.authenticate
  cases hlength : Connection.pack 4 (token.length : ℤ) with
  | error raised =>
    rw [run_bind_of_error (Stateful.run_ofExcept _ _)]
    exact ⟨[], a, composes_sent.refl c, rfl, fun _ h => absurd h (by simp)⟩
  | ok length =>
  obtain ⟨hsize, rfl⟩ := pack_eq_ok_iff.mp hlength
  rw [run_bind_of_ok (Stateful.run_ofExcept _ _)]
  refine Moves.bind composes_sent (moves_request (.saslAuthenticate token) step) ?_ c
  intro frame
  refine .bind composes_sent (.ofExcept composes_sent _) fun read => ?_
  exact .ite (fun _ => .throw composes_sent _) fun _ => .pure composes_sent _

end Primitives

/-! ### The stages of a session -/

inductive Stage
  | connected
  | offered
  | challenged
  | authenticated
  | asked
  deriving DecidableEq, Repr

section Stages

variable (hashes : Algorithm → Scram.Hash) (settings : Settings) (random : Vector UInt8 24)

/-- The requests of `_authenticate`, with the stages before and after. -/
inductive Authenticates : Request → Stage → Stage → Prop
  | handshake {mechanism : String} (selected : settings.saslMechanism = some mechanism) :
    Authenticates (.saslHandshake mechanism) .connected .offered
  | plain {username password : String} (selected : settings.saslMechanism = some "PLAIN")
      (husername : settings.identity.username = some username)
      (hpassword : settings.secrets.password = some password) :
    Authenticates (.saslAuthenticate (utf8 (plainToken username password))) .offered .authenticated
  | first {mechanism username : String} (selected : settings.saslMechanism = some mechanism)
      (scram : mechanism ≠ "PLAIN") (husername : settings.identity.username = some username) :
    Authenticates (.saslAuthenticate
      (utf8 ("n,," ++ clientFirst username (tokenUrlsafe random)))) .offered .challenged
  | final {mechanism username password server : String} {challenge : ScramChallenge}
      (selected : settings.saslMechanism = some mechanism) (scram : mechanism ≠ "PLAIN")
      (husername : settings.identity.username = some username)
      (hpassword : settings.secrets.password = some password)
      (admissible : Admissible (tokenUrlsafe random) server challenge) :
    Authenticates (.saslAuthenticate (utf8 (clientFinal challenge ++ ",p=" ++ b64encode
      (clientProof (hashes (algorithm mechanism)) password challenge (utf8 (transcript
        (clientFirst username (tokenUrlsafe random)) server
        (clientFinal challenge)))).toList))) .challenged .authenticated

/-- Where `_authenticate` ends when it returns. -/
def Stage.entered : Stage := if settings.saslMechanism.isSome then .authenticated else .connected

/-- The requests of a session. -/
inductive Follows : Request → Stage → Stage → Prop
  | authenticates {request : Request} {a b : Stage}
      (step : Authenticates hashes settings random request a b) : Follows request a b
  | apiVersions : Follows .apiVersions (Stage.entered settings) .asked

variable {hashes settings random}

/-- None of the requests of `_authenticate` asks for the protocol ranges. -/
theorem Authenticates.key_ne {request : Request} {a b : Stage}
    (h : Authenticates hashes settings random request a b) : request.key ≠ 18 := by
  cases h with
  | handshake => exact (by decide : (17 : ℤ) ≠ 18)
  | plain => exact (by decide : (36 : ℤ) ≠ 18)
  | first => exact (by decide : (36 : ℤ) ≠ 18)
  | final => exact (by decide : (36 : ℤ) ≠ 18)

theorem moves_scram {mechanism username password : String}
    (selected : settings.saslMechanism = some mechanism) (notPlain : mechanism ≠ "PLAIN")
    (husername : settings.identity.username = some username)
    (hpassword : settings.secrets.password = some password) :
    Moves Sent (Authenticates hashes settings random) .offered .authenticated
      (scram hashes Connection.authenticate mechanism username password random) := by
  unfold scram
  dsimp only
  refine .bind composes_sent
    (moves_authenticate _ (.first selected notPlain husername)) fun response => ?_
  split
  · exact .throw composes_sent _
  split
  · exact .throw composes_sent _
  next server _ _ challenge hchallenge =>
  have admissible := readChallenge_eq_some_iff.mp hchallenge
  refine .bind composes_sent (moves_authenticate _
    (.final selected notPlain husername hpassword admissible)) fun reply => ?_
  exact .ite (fun _ => .throw composes_sent _) fun _ => .pure composes_sent _

theorem moves_handshake {mechanism : String} (selected : settings.saslMechanism = some mechanism) :
    Moves Sent (Authenticates hashes settings random) .connected .offered
      (handshake Connection.requests mechanism) := by
  intro c
  unfold handshake
  cases hbody : Connection.string mechanism with
  | error raised =>
    rw [run_bind_of_error (Stateful.run_ofExcept _ _)]
    exact ⟨[], _, composes_sent.refl c, rfl, fun _ h => absurd h (by simp)⟩
  | ok body =>
  obtain ⟨-, rfl⟩ := string_eq_ok_iff.mp hbody
  rw [run_bind_of_ok (Stateful.run_ofExcept _ _)]
  refine Moves.bind composes_sent
    (moves_request (.saslHandshake mechanism) (.handshake selected)) ?_ c
  intro frame
  refine .bind composes_sent (.ofExcept composes_sent _) fun read => ?_
  exact .ite (fun _ => .throw composes_sent _) fun _ => .pure composes_sent _

theorem moves_authentication :
    Moves Sent (Authenticates hashes settings random) .connected (Stage.entered settings)
      (authenticate hashes Connection.requests settings random) := by
  unfold authenticate Stage.entered
  cases hmechanism : settings.saslMechanism with
  | none => exact .pure composes_sent _
  | some mechanism =>
  show Moves Sent _ Stage.connected Stage.authenticated _
  refine .bind composes_sent (moves_handshake hmechanism) fun _ => ?_
  split
  swap
  · exact .throw composes_sent _
  next username password husername hpassword =>
  refine .ite (fun hplain => .ite (fun _ => .throw composes_sent _) fun _ => ?_) fun hscram => ?_
  · subst hplain
    exact .bind composes_sent (moves_authenticate _ (.plain hmechanism husername hpassword))
      fun _ => .pure composes_sent _
  · exact moves_scram hmechanism hscram husername hpassword

theorem moves_session :
    Moves Sent (Follows hashes settings random) .connected .asked
      (session hashes Connection.requests settings random) := by
  have hauthentication : Moves Sent (Follows hashes settings random) .connected
      (Stage.entered settings) (authenticate hashes Connection.requests settings random) :=
    moves_authentication.mono fun _ _ _ => .authenticates
  refine .bind composes_sent hauthentication fun _ => ?_
  exact .bind composes_sent (moves_request .apiVersions .apiVersions) fun _ =>
    .ofExcept composes_sent _

/-- A frame in front is read off, whatever follows it. -/
theorem frame_append_inj {request request' : Request} {id id' : ℤ} (fits : request.Fits id)
    (fits' : request'.Fits id') {bytes bytes' : List UInt8}
    (h : request.frame id ++ bytes = request'.frame id' ++ bytes') :
    (id, request) = (id', request') ∧ bytes = bytes' := by
  unfold Request.frame at h
  rw [List.append_assoc, List.append_assoc] at h
  obtain ⟨hlength, h⟩ := BigEndian.append_inj_of_ofInt fits.size fits'.size h
  obtain ⟨hpayload, hbytes⟩ := List.append_inj h (by exact_mod_cast hlength)
  unfold Request.header at hpayload
  simp only [List.append_assoc] at hpayload
  -- the fields of the header stand one behind the other
  obtain ⟨hkey, hpayload⟩ := BigEndian.append_inj_of_ofInt fits.key fits'.key hpayload
  obtain ⟨hversion, hpayload⟩ := BigEndian.append_inj_of_ofInt fits.version fits'.version hpayload
  obtain ⟨hid, hpayload⟩ :=
    BigEndian.append_inj_of_ofInt fits.correlation fits'.correlation hpayload
  have hbody := List.append_cancel_left (List.append_cancel_left hpayload)
  obtain ⟨key, version, body⟩ := request
  obtain ⟨key', version', body'⟩ := request'
  dsimp only at hkey hversion hbody
  subst hkey hversion hid hbody
  exact ⟨rfl, hbytes⟩

/-- The frames of requests are read in one way. -/
theorem eq_of_frames_eq {numbered numbered' : List (ℤ × Request)}
    (fits : ∀ x ∈ numbered, x.2.Fits x.1) (fits' : ∀ x ∈ numbered', x.2.Fits x.1)
    (h : numbered.flatMap (fun x => x.2.frame x.1) = numbered'.flatMap fun x => x.2.frame x.1) :
    numbered = numbered' := by
  -- no frame is empty
  have hne : ∀ (request : Request) (id : ℤ) (bytes : List UInt8),
      request.frame id ++ bytes ≠ [] := by
    intro request id bytes hnil
    have := congrArg List.length hnil
    simp [Request.frame] at this
  induction numbered generalizing numbered' with
  | nil =>
    cases numbered' with
    | nil => rfl
    | cons x' numbered' => exact absurd h.symm (hne _ _ _)
  | cons x numbered ih =>
    cases numbered' with
    | nil => exact absurd h (hne _ _ _)
    | cons x' numbered' =>
      rw [List.forall_mem_cons] at fits fits'
      obtain ⟨hx, hrest⟩ := frame_append_inj fits.1 fits'.1 h
      obtain rfl : x = x' := hx
      rw [ih fits.2 fits'.2 hrest]

variable (hashes settings random)

/-- **A session sends its requests in order, and no others**, whatever the broker answers, however
the socket behaves and whenever the deadline is reached. They lead from one stage of the protocol
to the next, and through all of them if the session returns; the protocol ranges are asked for
only when `_authenticate` has returned. The bytes that have been sent determine the requests with
their correlation ids. -/
theorem session_sends (c : Connection) :
    (∃ requests stage,
      Sent requests c (run (session hashes Connection.requests settings random) c).2 ∧
      Leads (Follows hashes settings random) requests .connected stage ∧
      (∀ versions, (run (session hashes Connection.requests settings random) c).1 = .ok versions →
        stage = .asked) ∧
      (.apiVersions ∈ requests →
        ∃ c₁, run (authenticate hashes Connection.requests settings random) c = (.ok (), c₁))) ∧
    ∀ numbered numbered' : List (ℤ × Request), (∀ x ∈ numbered, x.2.Fits x.1) →
      (∀ x ∈ numbered', x.2.Fits x.1) →
      numbered.flatMap (fun x => x.2.frame x.1) = numbered'.flatMap (fun x => x.2.frame x.1) →
        numbered = numbered' := by
  have authentication : Moves Sent (Authenticates hashes settings random) .connected
      (Stage.entered settings) (authenticate hashes Connection.requests settings random) :=
    moves_authentication
  refine ⟨?_, fun _ _ => eq_of_frames_eq⟩
  rcases hrun : run (authenticate hashes Connection.requests settings random) c with
    ⟨raised | ⟨⟩, c₁⟩
  swap
  · obtain ⟨requests, stage, hsent, hleads, hreturned⟩ := moves_session c
    exact ⟨requests, stage, hsent, hleads, hreturned, fun _ => ⟨c₁, rfl⟩⟩
  -- what is sent before `_authenticate` raises does not ask for the ranges
  obtain ⟨requests, stage, hsent, hleads, -⟩ := authentication c
  rw [hrun] at hsent
  unfold session
  rw [run_bind_of_error hrun]
  refine ⟨requests, stage, hsent, hleads.mono fun _ _ _ => .authenticates,
    fun _ h => absurd h (by simp), fun hmem => ?_⟩
  obtain ⟨a, b, hstep⟩ := hleads.exists_step_of_mem hmem
  exact absurd rfl hstep.key_ne

end Stages

end KafkaProtocol

end MeridianKafka
