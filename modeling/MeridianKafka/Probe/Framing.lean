import MeridianKafka.Probe.Protocol
import MeridianKafka.Framework.Machine

/-!
# Framed requests

What a connection answers does not depend on how the socket splits the bytes of its peer.

`Wire` is a connection without its socket: the bytes that are still to come, and the
correlation id. A request on the wire takes the next frame off these bytes (`nextFrame`). As
long as the deadline is not reached, a request on the connection agrees with the one on the
wire, whatever the chunks (`agrees_request`), and so does a run of calls
(`requests_independent_of_chunks`).
-/

namespace MeridianKafka

open Framework

namespace KafkaProtocol

open BigEndian (Fits ofInt toInt)
open Stateful (Agrees run run_bind run_bind_of_ok run_bind_of_error run_get run_pure run_set)
open KafkaProbeEngine (configurationError)

/-- The peer has closed its side. -/
def closed : Raised := configurationError "Kafka probe connection closed before response"

/-! ### The wire -/

/-- What a connection is, apart from the chunks and the time. -/
structure Wire where
  incoming : List UInt8
  correlation : ℤ
  sendallRaises : ℕ → Option Raised
  sent : List (List UInt8)

/-- The next frame of the bytes, without its correlation id, and what follows it. -/
def nextFrame (correlation : ℤ) (bytes : List UInt8) :
    Except Raised (List UInt8) × List UInt8 :=
  if bytes.length < 4 then (.error closed, [])
  else
    let size := toInt (bytes.take 4)
    let rest := bytes.drop 4
    if ¬(4 ≤ size ∧ size ≤ 1048576) then
      (.error (configurationError "Kafka probe frame size is invalid"), rest)
    else if rest.length < size.toNat then (.error closed, [])
    else if toInt (rest.take 4) ≠ correlation then
      (.error (configurationError "Kafka probe correlation mismatch"), rest.drop size.toNat)
    else (.ok ((rest.take size.toNat).drop 4), rest.drop size.toNat)

namespace Wire

/-- A program over the wire. -/
abbrev Exchange := Stateful Raised Wire

def sendall (payload : List UInt8) : Exchange Unit := do
  let w ← get
  set { w with sent := w.sent ++ [payload] }
  match w.sendallRaises w.sent.length with
  | some raised => throw raised
  | none => return ()

def send (key version : ℤ) (body : List UInt8) : Exchange ℤ := do
  let w ← get
  let correlation := w.correlation + 1
  set { w with correlation }
  let payload := (← Stateful.ofExcept (Connection.header key version correlation)) ++ body
  sendall ((← Stateful.ofExcept (Connection.pack 4 payload.length)) ++ payload)
  return correlation

/-- The next frame comes in. -/
def receive (correlation : ℤ) : Exchange (List UInt8) := do
  let w ← get
  set { w with incoming := (nextFrame correlation w.incoming).2 }
  Stateful.ofExcept (nextFrame correlation w.incoming).1

theorem run_receive (correlation : ℤ) (w : Wire) :
    run (receive correlation) w =
      ((nextFrame correlation w.incoming).1,
        { w with incoming := (nextFrame correlation w.incoming).2 }) := rfl

def request (key version : ℤ) (body : List UInt8) : Exchange (List UInt8) := do
  let correlation ← send key version body
  receive correlation

def authenticate (token : List UInt8) : Exchange (List UInt8) := do
  let length ← Stateful.ofExcept (Connection.pack 4 token.length)
  let frame ← request 36 0 (length ++ token)
  let (error, response) ←
    Stateful.ofExcept (run Connection.readAuthentication ⟨frame, 0⟩).1
  if error ≠ 0 then throw (.failure { kind := .kafkaAuthenticationFailed }) else return response

end Wire

namespace Connection

def wire (c : Connection) : Wire where
  incoming := c.stream.incoming
  correlation := c.correlation
  sendallRaises := c.stream.sendallRaises
  sent := c.stream.sent

/-- The deadline is not reached, whenever the time is told. -/
def BeforeDeadline (c : Connection) : Prop := ∀ k, c.stream.monotonicNs k < c.deadlineNs

/-- The connection is this wire, with time left. -/
structure Carries (c : Connection) (w : Wire) : Prop where
  wire : c.wire = w
  time : c.BeforeDeadline

variable {c : Connection} {w : Wire}

/-! ### Reading -/

theorem run_timeout (h : c.BeforeDeadline) :
    run timeout c = (.ok (), { c with stream := { c.stream with told := c.stream.told + 1 } }) := by
  have hleft := h c.stream.told
  unfold timeout
  rw [run_bind, run_get]
  dsimp only
  rw [run_bind, run_set]
  dsimp only
  rw [if_neg (by omega)]
  rfl

theorem agrees_timeout : Agrees Carries timeout (pure () : Wire.Exchange Unit) := by
  intro c w h
  rw [run_timeout h.time, run_pure]
  exact ⟨rfl, h.wire, h.time⟩

/-- The connection after a `recv` of `n` bytes, and the time before it. -/
def taken (c : Connection) (n : ℕ) : Connection :=
  { c with stream :=
    { c.stream with
      told := c.stream.told + 1
      incoming := c.stream.incoming.drop n
      received := c.stream.received + 1 } }

theorem carries_taken (h : c.BeforeDeadline) (n : ℕ) :
    Carries (c.taken n) { c.wire with incoming := c.stream.incoming.drop n } := ⟨rfl, h⟩

/-- The loop reads up to the size that is asked for, in whatever chunks, or up to the end. -/
theorem run_readLoop (fuel size : ℕ) (chunks : List UInt8) (enough : size ≤ chunks.length + fuel)
    (h : c.BeforeDeadline) :
    (run (readLoop fuel size chunks) c).1 =
        (if size - chunks.length ≤ c.stream.incoming.length then
          .ok (chunks ++ c.stream.incoming.take (size - chunks.length))
        else .error closed) ∧
      Carries (run (readLoop fuel size chunks) c).2
        { c.wire with incoming := c.stream.incoming.drop (size - chunks.length) } := by
  induction fuel generalizing chunks c with
  | zero =>
    have hnone : size - chunks.length = 0 := by omega
    rw [hnone, if_pos (Nat.zero_le _), List.take_zero, List.append_nil]
    exact ⟨rfl, rfl, h⟩
  | succ fuel ih =>
    unfold readLoop
    split
    swap
    · have hnone : size - chunks.length = 0 := by omega
      rw [hnone, if_pos (Nat.zero_le _), List.take_zero, List.append_nil]
      exact ⟨rfl, rfl, h⟩
    next hmissing =>
    rw [run_bind_of_ok (run_timeout h)]
    obtain ⟨missing, hsize⟩ : ∃ missing, size - chunks.length = missing := ⟨_, rfl⟩
    obtain ⟨n, hn⟩ : ∃ n, min missing (max 1 (c.stream.chunk c.stream.received)) = n := ⟨_, rfl⟩
    have hsome : 1 ≤ n ∧ n ≤ missing := by omega
    rw [hsize]
    have hrecv : run (recv missing)
        { c with stream := { c.stream with told := c.stream.told + 1 } } =
        (.ok (c.stream.incoming.take n), c.taken n) := by
      rw [← hn]
      rfl
    rw [run_bind_of_ok hrecv]
    have htaken : (c.taken n).stream.incoming = c.stream.incoming.drop n := rfl
    have hwire : ∀ k, { (c.taken n).wire with incoming := (c.stream.incoming.drop n).drop k } =
        { c.wire with incoming := c.stream.incoming.drop (n + k) } := by
      intro k
      rw [List.drop_drop]
      rfl
    split
    · -- nothing has come, so nothing will
      next hempty =>
      have hend : c.stream.incoming = [] := by
        rcases List.take_eq_nil_iff.mp hempty with hzero | hnil
        · omega
        · exact hnil
      have hcarries := carries_taken h n
      rw [if_neg (by rw [hend, List.length_nil]; omega)]
      rw [hend, List.drop_nil] at hcarries ⊢
      exact ⟨rfl, hcarries⟩
    · next hchunk =>
      have hpos : c.stream.incoming.length ≠ 0 := by
        intro hzero
        rw [List.eq_nil_of_length_eq_zero hzero] at hchunk
        exact hchunk List.take_nil
      have hleft : size - (chunks ++ c.stream.incoming.take n).length =
          missing - min n c.stream.incoming.length := by
        rw [List.length_append, List.length_take]
        omega
      obtain ⟨hanswer, hcarries⟩ := ih (chunks ++ c.stream.incoming.take n)
        (by rw [List.length_append, List.length_take]; omega) (carries_taken h n).time
      rw [hleft, htaken, hwire] at hcarries
      rw [hanswer, hleft, htaken, List.length_drop, List.append_assoc]
      -- a chunk is shorter than what `recv` may hand over only at the end
      by_cases hend : n ≤ c.stream.incoming.length
      · have hall : n + (missing - n) = missing := by omega
        rw [Nat.min_eq_left hend, hall] at hcarries
        rw [Nat.min_eq_left hend, ← List.take_add, hall]
        exact ⟨if_congr (by omega) rfl rfl, hcarries⟩
      · rw [Nat.min_eq_right (by omega), List.drop_eq_nil_of_le (by omega)] at hcarries
        rw [Nat.min_eq_right (by omega), if_neg (by omega), if_neg (by omega),
          List.drop_eq_nil_of_le (by omega)]
        exact ⟨rfl, hcarries⟩

theorem run_read (size : ℕ) (h : Carries c w) :
    (run (read size) c).1 =
        (if size ≤ w.incoming.length then .ok (w.incoming.take size) else .error closed) ∧
      Carries (run (read size) c).2 { w with incoming := w.incoming.drop size } := by
  obtain ⟨rfl, htime⟩ := h
  have hloop := run_readLoop size size [] (by simp) htime
  rwa [List.length_nil, Nat.sub_zero, List.nil_append] at hloop

/-! ### Requests -/

theorem agrees_sendall (payload : List UInt8) :
    Agrees Carries (sendall payload) (Wire.sendall payload) := by
  intro c w h
  obtain ⟨rfl, htime⟩ := h
  unfold sendall Wire.sendall
  rw [run_bind, run_get, run_bind, run_get]
  dsimp only
  rw [run_bind, run_set, run_bind, run_set]
  dsimp only [wire]
  cases c.stream.sendallRaises c.stream.sent.length with
  | some raised => exact ⟨rfl, rfl, htime⟩
  | none => exact ⟨rfl, rfl, htime⟩

theorem agrees_send (key version : ℤ) (body : List UInt8) :
    Agrees Carries (send key version body) (Wire.send key version body) := by
  intro c w h
  obtain ⟨rfl, htime⟩ := h
  unfold send Wire.send
  rw [run_bind, run_get, run_bind, run_get]
  dsimp only
  rw [run_bind, run_set, run_bind, run_set]
  dsimp only
  -- the connection looks at the time in between
  have hrest := (Agrees.ofExcept (R := Carries)
    (header key version (c.correlation + 1))).bind fun header => agrees_timeout.bind fun _ =>
      (Agrees.ofExcept (pack 4 (header ++ body).length)).bind fun length =>
        (agrees_sendall (length ++ (header ++ body))).bind fun _ => .pure (c.correlation + 1)
  simp only [pure_bind] at hrest
  exact hrest _ _ ⟨rfl, htime⟩

theorem run_readFrame (correlation : ℤ) {size : ℤ} (least : 4 ≤ size) {frame : List UInt8}
    (hlength : frame.length = size.toNat) :
    (run (readFrame correlation size) ⟨frame, 0⟩).1 =
      if toInt (frame.take 4) ≠ correlation then
        .error (configurationError "Kafka probe correlation mismatch")
      else .ok (frame.drop 4) := by
  -- a frame has four bytes at least
  have hid : run (integer 4) ⟨frame, 0⟩ = (.ok (toInt (frame.take 4)), ⟨frame, 4⟩) := by
    unfold integer take
    rw [run_bind, Reading.run_take, if_neg (by dsimp only; omega)]
    rfl
  unfold readFrame
  rw [run_bind_of_ok hid]
  split
  · rfl
  · unfold take
    rw [Reading.run_take, if_neg (by dsimp only; omega)]
    refine congrArg Except.ok (List.take_of_length_le ?_)
    show (frame.drop 4).length ≤ _
    rw [List.length_drop]
    omega

/-- **A request does not depend on the chunks.** -/
theorem agrees_request (key version : ℤ) (body : List UInt8) :
    Agrees Carries (request key version body) (Wire.request key version body) := by
  refine (agrees_send key version body).bind fun correlation c w h => ?_
  obtain ⟨hpre, hcarries⟩ := run_read 4 h
  rw [Wire.run_receive, run_bind]
  generalize run (read 4) c = outcome at hpre hcarries ⊢
  obtain ⟨answer, c₁⟩ := outcome
  dsimp only at hpre hcarries
  subst hpre
  unfold nextFrame
  by_cases hshort : w.incoming.length < 4
  · rw [if_neg (by omega), if_pos hshort]
    rw [List.drop_eq_nil_of_le (by omega)] at hcarries
    exact ⟨rfl, hcarries⟩
  rw [if_pos (by omega), if_neg hshort]
  dsimp only
  by_cases hsize : 4 ≤ toInt (w.incoming.take 4) ∧ toInt (w.incoming.take 4) ≤ 1048576
  swap
  · rw [if_pos hsize, if_pos hsize]
    exact ⟨rfl, hcarries⟩
  rw [if_neg (not_not.mpr hsize), if_neg (not_not.mpr hsize)]
  -- the rest of the frame
  obtain ⟨hframe, hcarries'⟩ := run_read (toInt (w.incoming.take 4)).toNat hcarries
  rw [run_bind]
  generalize run (read (toInt (w.incoming.take 4)).toNat) c₁ = outcome at hframe hcarries' ⊢
  obtain ⟨answer, c₂⟩ := outcome
  dsimp only at hframe hcarries'
  subst hframe
  by_cases hcut : (w.incoming.drop 4).length < (toInt (w.incoming.take 4)).toNat
  · rw [if_neg (by omega), if_pos hcut]
    rw [List.drop_eq_nil_of_le (by omega)] at hcarries'
    exact ⟨rfl, hcarries'⟩
  rw [if_pos (by omega), if_neg hcut]
  dsimp only
  have hlength : ((w.incoming.drop 4).take (toInt (w.incoming.take 4)).toNat).length =
      (toInt (w.incoming.take 4)).toNat := by
    rw [List.length_take]
    omega
  have hid : ((w.incoming.drop 4).take (toInt (w.incoming.take 4)).toNat).take 4 =
      (w.incoming.drop 4).take 4 := by
    rw [List.take_take, Nat.min_eq_left (by omega)]
  rw [Stateful.run_ofExcept, run_readFrame correlation hsize.1 hlength, hid]
  split
  · exact ⟨rfl, hcarries'⟩
  · exact ⟨rfl, hcarries'⟩

theorem agrees_authenticate (token : List UInt8) :
    Agrees Carries (authenticate token) (Wire.authenticate token) := by
  refine (Agrees.ofExcept _).bind fun length => (agrees_request 36 0 (length ++ token)).bind
    fun frame => (Agrees.ofExcept _).bind fun outcome => ?_
  exact .ite (fun _ => .throw _) fun _ => .pure _

end Connection

/-! ### Runs of calls -/

/-- A call that sends a request. -/
inductive Call
  | request (key version : ℤ) (body : List UInt8)
  | authenticate (token : List UInt8)

namespace Call

def perform : Call → Exchange (List UInt8)
  | .request key version body => Connection.request key version body
  | .authenticate token => Connection.authenticate token

/-- What a call makes of the body of its response. -/
def Makes : Call → List UInt8 → List UInt8 → Prop
  | .request _ _ _, body, answer => answer = body
  | .authenticate _, body, answer =>
    (run Connection.readAuthentication ⟨body, 0⟩).1 = .ok (0, answer)

end Call

/-- Calls on one connection, one after the other; a call that raises does not end the run. -/
def calling : Machine Connection Call where
  allowed _ _ := True
  next c call := (run call.perform c).2

/-- What the calls of a run answer. -/
def answers (c : Connection) (calls : List Call) : List (Except Raised (List UInt8)) :=
  (calling.steps c calls).map fun x => (run x.2.perform x.1).1

/-- A request has taken one frame off the bytes of the peer: four bytes for the size, and as
many as these announce, which are its own correlation id and the body. -/
structure Framed (before after : Connection) (body : List UInt8) : Prop where
  correlation : after.correlation = before.correlation + 1
  incoming : before.stream.incoming =
    ofInt 4 (body.length + 4) ++ (ofInt 4 after.correlation ++ (body ++ after.stream.incoming))
  size : body.length + 4 ≤ 1048576

/-- Bytes that are read as a number are the ones it is written with. -/
theorem take_eq_ofInt {width : ℕ} {bytes : List UInt8} {n : ℤ} (hwidth : width ≤ bytes.length)
    (h : toInt (bytes.take width) = n) : bytes.take width = ofInt width n :=
  (BigEndian.toInt_eq_iff.mp ⟨List.length_take_of_le hwidth, h⟩).2

/-- A frame at the front, without its first four bytes, and what follows it. -/
theorem take_append_frame {bytes : List UInt8} {size : ℕ} (least : 4 ≤ size) :
    bytes.take 4 ++ ((bytes.take size).drop 4 ++ bytes.drop size) = bytes := by
  calc bytes.take 4 ++ ((bytes.take size).drop 4 ++ bytes.drop size)
      = bytes.take 4 ++ ((bytes.drop 4).take (size - 4) ++ (bytes.drop 4).drop (size - 4)) := by
        rw [List.drop_take, List.drop_drop, Nat.add_sub_cancel' least]
    _ = bytes.take 4 ++ bytes.drop 4 := by rw [List.take_append_drop]
    _ = bytes := List.take_append_drop 4 bytes

/-- A frame that is accepted has its size in front and its correlation id behind it. -/
theorem eq_of_nextFrame {correlation : ℤ} {bytes body rest : List UInt8}
    (h : nextFrame correlation bytes = (.ok body, rest)) :
    bytes = ofInt 4 (body.length + 4) ++ (ofInt 4 correlation ++ (body ++ rest)) ∧
      body.length + 4 ≤ 1048576 := by
  unfold nextFrame at h
  split at h
  · simp at h
  next hshort =>
  dsimp only at h
  split at h
  · simp at h
  next hsize =>
  split at h
  · simp at h
  next hcut =>
  split at h
  · simp at h
  next hid =>
  -- every check has been passed
  rw [not_not] at hsize hid
  obtain ⟨hbody, rfl⟩ := Prod.mk.inj h
  obtain rfl := Except.ok.inj hbody
  obtain ⟨size, heq⟩ : ∃ size, toInt (bytes.take 4) = size := ⟨_, rfl⟩
  rw [heq] at hsize hcut ⊢
  have hpre : bytes.take 4 = ofInt 4 size := take_eq_ofInt (by omega) heq
  have hcorrelation : (bytes.drop 4).take 4 = ofInt 4 correlation := take_eq_ofInt (by omega) hid
  have hlength : ((((bytes.drop 4).take size.toNat).drop 4).length : ℤ) + 4 = size := by
    rw [List.length_drop, List.length_take]
    omega
  refine ⟨?_, by omega⟩
  rw [hlength, ← hpre, ← hcorrelation, take_append_frame (by omega), List.take_append_drop]

theorem Wire.send_ok {key version : ℤ} {body : List UInt8} {w w' : Wire} {correlation : ℤ}
    (h : run (Wire.send key version body) w = (.ok correlation, w')) :
    correlation = w.correlation + 1 ∧ w'.correlation = correlation ∧ w'.incoming = w.incoming := by
  unfold Wire.send at h
  rw [run_bind, run_get] at h
  dsimp only at h
  rw [run_bind, run_set] at h
  dsimp only at h
  -- what is packed is sent but not kept
  obtain ⟨header, w₁, hheader, h⟩ := Stateful.run_bind_eq_ok_iff.mp h
  obtain ⟨length, w₂, hlength, h⟩ := Stateful.run_bind_eq_ok_iff.mp h
  obtain ⟨-, rfl⟩ := Prod.mk.inj hheader
  obtain ⟨-, rfl⟩ := Prod.mk.inj hlength
  obtain ⟨_, w₃, hsendall, h⟩ := Stateful.run_bind_eq_ok_iff.mp h
  obtain ⟨hcorrelation, rfl⟩ := Prod.mk.inj h
  obtain rfl := Except.ok.inj hcorrelation
  unfold Wire.sendall at hsendall
  rw [run_bind, run_get] at hsendall
  dsimp only at hsendall
  rw [run_bind, run_set] at hsendall
  dsimp only at hsendall
  split at hsendall
  · simp at hsendall
  · obtain ⟨-, rfl⟩ := Prod.mk.inj hsendall
    exact ⟨rfl, rfl, rfl⟩

namespace Connection

variable {c : Connection}

/-- A request that returns has taken its frame, and what is left is what follows the frame. -/
theorem framed_of_request {key version : ℤ} {body answer : List UInt8} (time : c.BeforeDeadline)
    (h : (run (request key version body) c).1 = .ok answer) :
    Framed c (run (request key version body) c).2 answer := by
  obtain ⟨hanswer, hcarries⟩ := agrees_request key version body c c.wire ⟨rfl, time⟩
  rw [h] at hanswer
  rcases hwire : run (Wire.request key version body) c.wire with ⟨outcome, w'⟩
  rw [hwire] at hanswer hcarries
  subst hanswer
  -- the request sends, which reads nothing, and then reads one frame
  obtain ⟨correlation, w, hsend, hreceive⟩ := Stateful.run_bind_eq_ok_iff.mp hwire
  obtain ⟨hid, hkept, hincoming⟩ := Wire.send_ok hsend
  rw [Wire.run_receive, Prod.mk.injEq] at hreceive
  obtain ⟨hframe, rfl⟩ := hreceive
  obtain ⟨hbytes, hsize⟩ := eq_of_nextFrame (Prod.ext hframe rfl)
  have hcorrelation : (run (request key version body) c).2.correlation = correlation :=
    (congrArg Wire.correlation hcarries.wire).trans hkept
  have hrest : (run (request key version body) c).2.stream.incoming =
      (nextFrame correlation w.incoming).2 := congrArg Wire.incoming hcarries.wire
  refine ⟨hcorrelation.trans hid, ?_, hsize⟩
  rw [hcorrelation, hrest, ← hbytes]
  exact hincoming.symm

theorem agrees_perform (call : Call) :
    ∃ onWire : Wire.Exchange (List UInt8), Agrees Carries call.perform onWire := by
  cases call with
  | request key version body => exact ⟨_, agrees_request key version body⟩
  | authenticate token => exact ⟨_, agrees_authenticate token⟩

theorem framed_of_perform {call : Call} {answer : List UInt8} (time : c.BeforeDeadline)
    (h : (run call.perform c).1 = .ok answer) :
    ∃ body, Framed c (run call.perform c).2 body ∧ call.Makes body answer := by
  cases call with
  | request key version body => exact ⟨answer, framed_of_request time h, rfl⟩
  | authenticate token =>
    rcases hrun : run (authenticate token) c with ⟨outcome, c'⟩
    have houtcome : outcome = .ok answer := (congrArg Prod.fst hrun).symm.trans h
    subst houtcome
    obtain ⟨length, c₁, hlength, hrest⟩ := Stateful.run_bind_eq_ok_iff.mp hrun
    obtain ⟨-, rfl⟩ := Prod.mk.inj hlength
    -- what is read from the frame leaves the connection where the request has left it
    obtain ⟨frame, c₂, hrequest, hrest⟩ := Stateful.run_bind_eq_ok_iff.mp hrest
    obtain ⟨⟨error, response⟩, c₃, hread, hrest⟩ := Stateful.run_bind_eq_ok_iff.mp hrest
    obtain ⟨hmakes, rfl⟩ := Prod.mk.inj hread
    have hframed := framed_of_request time (congrArg Prod.fst hrequest)
    rw [hrequest] at hframed
    refine ⟨frame, ?_, ?_⟩
    · rw [show run (Call.authenticate token).perform c = (.ok answer, c') from hrun]
      dsimp only at hrest
      split at hrest
      · simp at hrest
      · obtain ⟨-, rfl⟩ := Prod.mk.inj hrest
        exact hframed
    · dsimp only at hrest
      split at hrest
      · simp at hrest
      · next hzero =>
        obtain ⟨hresponse, -⟩ := Prod.mk.inj hrest
        obtain rfl := Except.ok.inj hresponse
        obtain rfl := not_not.mp hzero
        exact hmakes

end Connection

open Connection

/-- The time is left in every step of a run. -/
theorem beforeDeadline_of_mem_steps {c : Connection} (time : c.BeforeDeadline) {calls : List Call}
    {x : Connection × Call} (hx : x ∈ calling.steps c calls) : x.1.BeforeDeadline := by
  refine Machine.steps_induction (I := BeforeDeadline) (C := fun _ _ => True) ?_ time
    (fun _ _ => trivial) (fun _ _ => trivial) x hx
  intro c call htime _ _
  obtain ⟨onWire, hagrees⟩ := agrees_perform call
  exact (hagrees c c.wire ⟨rfl, htime⟩).2.time

theorem answers_eq {c c' : Connection} {w : Wire} (h : Carries c w) (h' : Carries c' w)
    (calls : List Call) : answers c calls = answers c' calls := by
  induction calls generalizing c c' w with
  | nil => rfl
  | cons call calls ih =>
    obtain ⟨onWire, hagrees⟩ := agrees_perform call
    obtain ⟨hanswer, hcarries⟩ := hagrees c w h
    obtain ⟨hanswer', hcarries'⟩ := hagrees c' w h'
    have htail := ih hcarries hcarries'
    show (run call.perform c).1 :: answers (calling.next c call) calls =
      (run call.perform c').1 :: answers (calling.next c' call) calls
    rw [hanswer, hanswer']
    exact congrArg _ htail

/-- **Requests do not depend on the chunks.** Two connections whose peers send the same bytes
answer the same to every sequence of calls, however their sockets split the bytes, as long as
the deadlines are not reached. A call that succeeds has taken exactly its frame, so that the
next one starts at the next frame. -/
theorem requests_independent_of_chunks {c c' : Connection} (same : c.wire = c'.wire)
    (time : c.BeforeDeadline) (time' : c'.BeforeDeadline) (calls : List Call) :
    answers c calls = answers c' calls ∧
      ∀ x ∈ calling.steps c calls, ∀ answer, (run x.2.perform x.1).1 = .ok answer →
        ∃ body, Framed x.1 (calling.next x.1 x.2) body ∧ x.2.Makes body answer := by
  refine ⟨answers_eq ⟨same, time⟩ ⟨rfl, time'⟩ calls, ?_⟩
  intro x hx answer h
  exact framed_of_perform (beforeDeadline_of_mem_steps time hx) h

namespace Sample

/-- Two responses, of two bytes and of one. -/
def frames : List UInt8 :=
  ofInt 4 6 ++ ofInt 4 1 ++ [7, 8] ++ (ofInt 4 5 ++ ofInt 4 2 ++ [9])

/-- A new connection to a peer that has sent them, with these chunks. -/
def connection (chunk : ℕ → ℕ) : Connection where
  stream := { incoming := frames, chunk, monotonicNs := fun _ => 0 }
  deadlineNs := 1

end Sample

/-- Byte by byte, two requests are answered as they are when the bytes come at once. -/
theorem answers_bytewise :
    answers (Sample.connection fun _ => 1) [.request 18 0 [], .request 18 0 []] =
      [.ok [7, 8], .ok [9]] := by
  have hwire : (Sample.connection fun _ => 1).wire = (Sample.connection fun _ => 100).wire := rfl
  have hsame := (requests_independent_of_chunks hwire (fun _ => Int.one_pos)
    (fun _ => Int.one_pos) [.request 18 0 [], .request 18 0 []]).1
  have hwhole : answers (Sample.connection fun _ => 100) [.request 18 0 [], .request 18 0 []] =
      [.ok [7, 8], .ok [9]] := by decide +kernel
  exact hsame.trans hwhole

end KafkaProtocol

end MeridianKafka
