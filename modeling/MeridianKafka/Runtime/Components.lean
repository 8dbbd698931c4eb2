import MeridianKafka.Framework.Machine
import MeridianKafka.Transactions.Bridge

/-!
# The components of a runtime

`open`, `close` and `rotate_credentials` of `KafkaAdapterRuntime`: the clients that they
create and close, the fields that they assign, and every call of them that can raise.
`Lifecycle` is a runtime with the clients there are, and `lifecycle` the machine of its
calls; between them the sessions of the runtime join groups and use its transaction.

A client counts as closed once its close was called, whatever the call came to. An admin
client has no close. On the broker `init_transactions` fences every earlier producer with
the transactional id; a rotation keeps to the Binding of its runtime, so there is one id.

The constructors of the codec and of the engines do not raise on settings that were
accepted, and are not told apart from the assignments around them.
-/

namespace MeridianKafka

open Framework

/-! ### Clients -/

inductive ClientKind
  | admin
  | producer
  | transactionalProducer
  | consumer
  deriving DecidableEq, Repr

structure Client where
  id : ℕ
  kind : ClientKind
  deriving DecidableEq, Repr

/-- The clients that were created and closed, and the producer that Kafka lets act under
the transactional id: the last one that was initialized. -/
structure Clients where
  created : List Client := []
  closed : List Client := []
  holder : Option Client := none
  deriving DecidableEq

namespace Clients

variable (w : Clients)

/-- The next client of this kind. -/
def fresh (kind : ClientKind) : Client := ⟨w.created.length, kind⟩

def create (kind : ClientKind) : Clients := { w with created := w.fresh kind :: w.created }

def close (client : Client) : Clients := { w with closed := client :: w.closed }

def initTransactions (client : Client) : Clients := { w with holder := some client }

/-- A client works until it is closed, a transactional one until it is fenced. -/
def Works (client : Client) : Prop :=
  client ∉ w.closed ∧ (client.kind = .transactionalProducer → w.holder = some client)

instance (client : Client) : Decidable (w.Works client) := inferInstanceAs (Decidable (_ ∧ _))

end Clients

/-! ### Components -/

/-- The part of a Binding that the lifecycle reads. -/
structure Binding where
  id : String
  transactionalId : Option String
  readCommitted : Bool
  deriving DecidableEq, Repr

def Binding.transactionEnabled (binding : Binding) : Bool :=
  binding.transactionalId.isSome && binding.readCommitted

/-- A Binding with the credentials to use it. -/
structure AdapterCreateContext where
  binding : Binding
  credential : String
  deriving DecidableEq, Repr

/-- The transaction bridge with its producer. -/
structure BridgeComponent where
  producer : Client
  bridge : KafkaTransactionBridge := {}

/-- The engines of a runtime, each by its clients. -/
structure RuntimeComponents where
  admin : Option Client := none
  probeEngine : Option Client := none
  producerEngine : Option Client := none
  consumerEngine : Option (List Client) := none
  transactionBridge : Option BridgeComponent := none

/-- What closing the components raises. -/
structure CloseEnv where
  consumer : Client → Option Raised := fun _ => none
  abortTransaction : Option Raised := none
  aborted : Option Raised := none
  flushTransactional : Option Raised := none
  /-- `KafkaProducerEngine.close`: the flush, and the report of what stays queued. -/
  producer : Option Raised := none

/-- `KafkaConsumerEngine.close`, from its loop over the consumers on. -/
def closeConsumers (env : CloseEnv) : List Client → Clients → Option Raised × Clients
  | [], w => (none, w)
  | client :: clients, w =>
    match env.consumer client with
    | some raised => (some raised, w.close client)
    | none => closeConsumers env clients (w.close client)

/-- What `KafkaTransactionBridge.close` raises. -/
def BridgeComponent.closing (component : BridgeComponent) (env : CloseEnv) : Option Raised :=
  match component.bridge.close env.abortTransaction env.aborted env.flushTransactional with
  | (.error raised, _) => some raised
  | (.ok (), _) => none

namespace RuntimeComponents

variable (c : RuntimeComponents)

/-- Closing the consumer engine, the bridge and the producer, in this order; a close that
raises ends it. -/
def close (env : CloseEnv) (w : Clients) : Option Raised × Clients :=
  match closeConsumers env (c.consumerEngine.getD []) w with
  | (some raised, w) => (some raised, w)
  | (none, w) =>
    match c.transactionBridge with
    | none => c.producerEngine.elim (none, w) fun client => (env.producer, w.close client)
    | some component =>
      match component.closing env with
      | some raised => (some raised, w.close component.producer)
      | none =>
        c.producerEngine.elim (none, w.close component.producer) fun client =>
          (env.producer, (w.close component.producer).close client)

/-- The clients that closing the components has to close. -/
def clients : List Client :=
  c.consumerEngine.getD [] ++ (c.transactionBridge.map (·.producer)).toList ++
    c.producerEngine.toList

end RuntimeComponents

/-! ### The runtime -/

/-- The fields of `KafkaAdapterRuntime`. Settings and compiler stand for the context that
they were made from. -/
structure RuntimeFields where
  binding : Binding
  settings : AdapterCreateContext
  compiler : AdapterCreateContext
  components : RuntimeComponents := {}
  opened : Bool := false
  closed : Bool := false

/-- What the calls of `open` raise. -/
structure OpenEnv where
  admin : Option Raised := none
  producer : Option Raised := none
  probe : Option Raised := none
  transactionalProducer : Option Raised := none
  initTransactions : Option Raised := none
  initialized : Option Raised := none
  opened : Option Raised := none
  close : CloseEnv := {}

structure RuntimeCloseEnv where
  components : CloseEnv := {}
  emit : Option Raised := none

structure RotationEnv where
  fromContext : Option Raised := none
  opening : OpenEnv := {}
  /-- The second probe of the replacement, and closing the replacement after it. -/
  probe : Option Raised := none
  close : RuntimeCloseEnv := {}
  /-- The runtime is closed while its replacement is probed. -/
  meanwhile : Option RuntimeCloseEnv := none
  retire : CloseEnv := {}
  rotated : Option Raised := none

namespace RuntimeFields

variable (r : RuntimeFields) (w : Clients)

/-- A new runtime. -/
def create (context : AdapterCreateContext) : RuntimeFields where
  binding := context.binding
  settings := context
  compiler := context

def transactionEnabled : Bool := r.settings.binding.transactionEnabled

/-- The runtime counts as open. -/
def IsOpen : Prop := r.opened = true ∧ r.closed = false

instance : Decidable r.IsOpen := inferInstanceAs (Decidable (_ ∧ _))

/-- `_close_components`: the fields are cleared first. -/
def closeComponents (env : CloseEnv) : Option Raised × RuntimeFields × Clients :=
  match r.components.close env w with
  | (raised, w) => (raised, { r with components := {} }, w)

/-- The transactional part of `open`. -/
def openTransactions (env : OpenEnv) : Option Raised × RuntimeFields × Clients :=
  if r.transactionEnabled then
    match env.transactionalProducer with
    | some raised => (some raised, r, w)
    | none =>
      let producer := w.fresh .transactionalProducer
      let w := w.create .transactionalProducer
      let r := { r with components := { r.components with transactionBridge := some { producer } } }
      match env.initTransactions with
      | some raised =>
        (some (.failure (normalizeKafkaError raised KafkaTransactionBridge.operationContract)), r, w)
      | none => (env.initialized, r, w.initTransactions producer)
  else (none, r, w)

/-- The body of `open`, within its `try`. -/
def openBody (env : OpenEnv) : Option Raised × RuntimeFields × Clients :=
  match env.admin with
  | some raised => (some raised, r, w)
  | none =>
    let admin := w.fresh .admin
    let w := w.create .admin
    match env.producer with
    | some raised => (some raised, r, w)
    | none =>
      let producer := w.fresh .producer
      let w := w.create .producer
      let r :=
        { r with components :=
          { r.components with
            admin := some admin
            probeEngine := some admin
            producerEngine := some producer
            consumerEngine := some [] } }
      match env.probe with
      | some raised => (some raised, r, w)
      | none =>
        match r.openTransactions w env with
        | (some raised, r, w) => (some raised, r, w)
        | (none, r, w) => (env.opened, { r with opened := true }, w)

/-- `open`. -/
def openRuntime (env : OpenEnv) : Option Raised × RuntimeFields × Clients :=
  if r.opened || r.closed then
    (some (.runtimeError "Kafka Adapter runtime cannot be opened in its current state"), r, w)
  else
    match r.openBody w env with
    | (none, r, w) => (none, r, w)
    | (some raised, r, w) =>
      match r.closeComponents w env.close with
      | (closing, r, w) => (some (closing.getD raised), r, w)

/-- `close`. -/
def close (env : RuntimeCloseEnv) : Option Raised × RuntimeFields × Clients :=
  if r.closed then (none, r, w)
  else
    match closeComponents { r with closed := true } w env.components with
    | (some raised, r, w) => (some raised, r, w)
    | (none, r, w) => (env.emit, r, w)

def requireOpen : Option Raised :=
  if !r.opened || r.closed then some (.runtimeError "Kafka Adapter runtime is not open") else none

/-- What the others leave of the runtime while its replacement is probed. -/
def meanwhile (env : RotationEnv) : RuntimeFields × Clients :=
  env.meanwhile.elim (r, w) fun closing => (r.close w closing).2

/-- `rotate_credentials` up to the swap: a replacement that was opened and probed. -/
def prepareReplacement (context : AdapterCreateContext) (env : RotationEnv) :
    Except Raised RuntimeFields × Clients :=
  match env.fromContext with
  | some raised => (.error raised, w)
  | none =>
    if context.binding ≠ r.binding then
      (.error (.failure
        { kind := .kafkaConfigurationError
          message := "credential rotation cannot replace the Binding" }), w)
    else
      match (create context).openRuntime w env.opening with
      | (some raised, _, w) => (.error raised, w)
      | (none, replacement, w) =>
        match env.probe with
        | none => (.ok replacement, w)
        | some raised =>
          match replacement.close w env.close with
          | (closing, _, w) => (.error (closing.getD raised), w)

/-- `rotate_credentials` from the lock on: the swap, and the end of what it replaces. -/
def swapReplacement (replacement : RuntimeFields) (env : RotationEnv) :
    Option Raised × RuntimeFields × Clients :=
  match r.requireOpen with
  | some raised => (some raised, r, w)
  | none =>
    let swapped :=
      { r with
        binding := replacement.binding
        settings := replacement.settings
        compiler := replacement.compiler
        components := replacement.components }
    match r.components.close env.retire w with
    | (some raised, w) => (some raised, swapped, w)
    | (none, w) => (env.rotated, swapped, w)

/-- `rotate_credentials`. -/
def rotateCredentials (context : AdapterCreateContext) (env : RotationEnv) :
    Option Raised × RuntimeFields × Clients :=
  match r.prepareReplacement w context env with
  | (.error raised, w) => (some raised, r, w)
  | (.ok replacement, w) =>
    match r.meanwhile w env with
    | (r, w) => r.swapReplacement w replacement env

/-- `_state` for a group without a member: a consumer is created, and kept once it has
subscribed. -/
def join (consumer subscribe : Option Raised) : Option Raised × RuntimeFields × Clients :=
  match r.requireOpen, r.components.consumerEngine with
  | none, some consumers =>
    match consumer with
    | some raised => (some raised, r, w)
    | none =>
      let client := w.fresh .consumer
      let w := w.create .consumer
      match subscribe with
      | some raised => (some raised, r, w)
      | none =>
        (none,
          { r with components :=
            { r.components with consumerEngine := some (consumers ++ [client]) } }, w)
  | none, none => (some (.runtimeError "Kafka consumer is unavailable"), r, w)
  | some raised, _ => (some raised, r, w)

end RuntimeFields

/-! ### The machine -/

/-- A runtime and the clients there are. -/
structure Lifecycle where
  runtime : RuntimeFields
  clients : Clients := {}

inductive LifecycleCall
  | openRuntime (env : OpenEnv)
  | close (env : RuntimeCloseEnv)
  | rotateCredentials (context : AdapterCreateContext) (env : RotationEnv)
  | join (consumer subscribe : Option Raised)
  /-- The sessions begin, use or end the transaction of the bridge. -/
  | transact (bridge : KafkaTransactionBridge)

/-- A call: what it raises, and the runtime and the clients after it. -/
def Lifecycle.call (s : Lifecycle) : LifecycleCall → Option Raised × RuntimeFields × Clients
  | .openRuntime env => s.runtime.openRuntime s.clients env
  | .close env => s.runtime.close s.clients env
  | .rotateCredentials context env => s.runtime.rotateCredentials s.clients context env
  | .join consumer subscribe => s.runtime.join s.clients consumer subscribe
  | .transact bridge =>
    (none,
      { s.runtime with components :=
        { s.runtime.components with
          transactionBridge :=
            s.runtime.components.transactionBridge.map ({ · with bridge }) } },
      s.clients)

/-- The machine of a runtime. -/
def lifecycle : Machine Lifecycle LifecycleCall where
  allowed _ _ := True
  next s call := ⟨(s.call call).2.1, (s.call call).2.2⟩

/-- A runtime that was created, before it is opened. -/
def Lifecycle.create (context : AdapterCreateContext) : Lifecycle := ⟨.create context, {}⟩

end MeridianKafka
