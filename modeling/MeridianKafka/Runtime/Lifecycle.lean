import MeridianKafka.Runtime.Components

/-!
# Open and closed runtimes

A runtime that counts as open should have its engines, an `open` that raises should leave
nothing behind, and `close` should reach every component.

`open` marks the runtime as open before its last report, and the handler of a failure does
not take the mark back: when that report raises, the runtime counts as open and has no
engines (`unreported_open_has_no_engines`). `_close_components` calls the closes of its
components in a row, so one that raises keeps the rest from being closed.

Otherwise the lifecycle is sound: in a run whose opens report and whose closes are
`Orderly`, every call is `Sound` (`sound_of_orderly`).
-/

namespace MeridianKafka

open Framework

/-! ### Closing -/

/-- Closing clients in order, up to one whose close raises. -/
def closeAll : List (Client × Option Raised) → Clients → Option Raised × Clients
  | [], w => (none, w)
  | (client, some raised) :: _, w => (some raised, w.close client)
  | (client, none) :: closings, w => closeAll closings (w.close client)

section CloseAll

variable {closings : List (Client × Option Raised)} {w : Clients} {client : Client}

theorem closeAll_append (closings' : List (Client × Option Raised)) :
    closeAll (closings ++ closings') w =
      match closeAll closings w with
      | (some raised, w) => (some raised, w)
      | (none, w) => closeAll closings' w := by
  induction closings generalizing w with
  | nil => rfl
  | cons closing closings ih =>
    obtain ⟨client, outcome⟩ := closing
    cases outcome with
    | some raised => rfl
    | none => exact ih

/-- What no close changes. -/
theorem closeAll_keeps {α : Type} {f : Clients → α} (hf : ∀ w client, f (w.close client) = f w) :
    f (closeAll closings w).2 = f w := by
  induction closings generalizing w with
  | nil => rfl
  | cons closing closings ih =>
    obtain ⟨client, outcome⟩ := closing
    cases outcome with
    | some raised => exact hf w client
    | none => exact ih.trans (hf w client)

theorem closeAll_created : (closeAll closings w).2.created = w.created :=
  closeAll_keeps fun _ _ => rfl

theorem closeAll_holder : (closeAll closings w).2.holder = w.holder :=
  closeAll_keeps fun _ _ => rfl

theorem mem_closeAll_of_mem (h : client ∈ w.closed) : client ∈ (closeAll closings w).2.closed := by
  induction closings generalizing w with
  | nil => exact h
  | cons closing closings ih =>
    obtain ⟨other, outcome⟩ := closing
    cases outcome with
    | some raised => exact List.mem_cons_of_mem _ h
    | none => exact ih (List.mem_cons_of_mem _ h)

/-- Nothing else is closed. -/
theorem of_mem_closeAll (h : client ∈ (closeAll closings w).2.closed) :
    client ∈ w.closed ∨ client ∈ closings.map Prod.fst := by
  induction closings generalizing w with
  | nil => exact Or.inl h
  | cons closing closings ih =>
    obtain ⟨other, outcome⟩ := closing
    rw [List.map_cons, List.mem_cons]
    cases outcome with
    | some raised => exact (List.mem_cons.mp h).elim (fun heq => Or.inr (Or.inl heq)) Or.inl
    | none =>
      refine (ih h).elim (fun hclosed => ?_) fun hlater => Or.inr (Or.inr hlater)
      exact (List.mem_cons.mp hclosed).elim (fun heq => Or.inr (Or.inl heq)) Or.inl

/-- Every close is called when none raises before the last. -/
theorem mem_closeAll_of_unhindered (h : ∀ closing ∈ closings.dropLast, closing.2 = none)
    (hclient : client ∈ closings.map Prod.fst) : client ∈ (closeAll closings w).2.closed := by
  induction closings generalizing w with
  | nil => simp at hclient
  | cons closing closings ih =>
    obtain ⟨first, outcome⟩ := closing
    cases closings with
    | nil =>
      -- The last close is called whatever it comes to.
      rw [List.map_singleton, List.mem_singleton] at hclient
      subst hclient
      cases outcome <;> exact List.mem_cons_self
    | cons second closings =>
      rw [List.dropLast_cons_cons] at h
      obtain rfl : outcome = none := h _ List.mem_cons_self
      rw [List.map_cons, List.mem_cons] at hclient
      rcases hclient with rfl | hclient
      · change client ∈ (closeAll (second :: closings) (w.close client)).2.closed
        exact mem_closeAll_of_mem List.mem_cons_self
      · exact ih (fun closing hclosing => h closing (List.mem_cons_of_mem _ hclosing)) hclient

end CloseAll

namespace RuntimeComponents

variable (c : RuntimeComponents) (env : CloseEnv)

/-- The closes of the components in order, and what each of them comes to. -/
def closings : List (Client × Option Raised) :=
  (c.consumerEngine.getD []).map (fun client => (client, env.consumer client)) ++
    c.transactionBridge.toList.map (fun component => (component.producer, component.closing env)) ++
      c.producerEngine.toList.map (fun client => (client, env.producer))

/-- No close raises before the last one. -/
def Unhindered : Prop := ∀ closing ∈ (c.closings env).dropLast, closing.2 = none

instance : Decidable (c.Unhindered env) := inferInstanceAs (Decidable (∀ _ ∈ _, _))

theorem map_closings : (c.closings env).map Prod.fst = c.clients := by
  unfold closings clients
  cases c.transactionBridge <;> simp [List.map_map, Function.comp_def]

theorem closeConsumers_eq (consumers : List Client) (w : Clients) :
    closeConsumers env consumers w =
      closeAll (consumers.map fun client => (client, env.consumer client)) w := by
  induction consumers generalizing w with
  | nil => rfl
  | cons client consumers ih =>
    unfold closeConsumers
    rw [List.map_cons]
    cases hclose : env.consumer client with
    | some raised => rfl
    | none => exact ih _

theorem close_eq_closeAll (w : Clients) : c.close env w = closeAll (c.closings env) w := by
  unfold close closings
  rw [closeConsumers_eq, List.append_assoc, closeAll_append]
  generalize closeAll _ w = consumers
  obtain ⟨raised, w⟩ := consumers
  cases raised with
  | some raised => rfl
  | none =>
  cases c.transactionBridge with
  | none => cases c.producerEngine with
    | none => rfl
    | some producer => cases hclose : env.producer <;> rfl
  | some component =>
    cases hclosing : component.closing env with
    | some raised => simp [closeAll, hclosing]
    | none =>
      cases c.producerEngine with
      | none => simp [closeAll, hclosing]
      | some producer => cases hclose : env.producer <;> simp [closeAll, hclosing]

end RuntimeComponents

/-! ### Opening -/

namespace OpenEnv

variable (env : OpenEnv)

/-- The first probe of an `open` returns. -/
def Probed : Prop := env.admin = none ∧ env.producer = none ∧ env.probe = none

instance : Decidable env.Probed := inferInstanceAs (Decidable (_ ∧ _ ∧ _))

/-- An `open` comes to its last report. -/
def ReachesReport (transactionEnabled : Bool) : Prop :=
  env.Probed ∧ (transactionEnabled →
    env.transactionalProducer = none ∧ env.initTransactions = none ∧ env.initialized = none)

instance (transactionEnabled : Bool) : Decidable (env.ReachesReport transactionEnabled) :=
  inferInstanceAs (Decidable (_ ∧ (_ → _)))

/-- An `open` closes its bridge, because the transactional producer does not become
ready. -/
def ClosesBridge (transactionEnabled : Bool) : Prop :=
  env.Probed ∧ transactionEnabled ∧ env.transactionalProducer = none ∧
    env.initTransactions.or env.initialized ≠ none

instance (transactionEnabled : Bool) : Decidable (env.ClosesBridge transactionEnabled) :=
  inferInstanceAs (Decidable (_ ∧ _ ∧ _ ∧ _))

end OpenEnv

namespace RuntimeFields

variable (r : RuntimeFields) (w : Clients)

/-- The fields with the engines of an `open`, before its bridge. -/
def equipped : RuntimeFields :=
  { r with components :=
    { r.components with
      admin := some (w.fresh .admin)
      probeEngine := some (w.fresh .admin)
      producerEngine := some ((w.create .admin).fresh .producer)
      consumerEngine := some [] } }

/-- The clients of an `open`, before its transactional producer. -/
def equipping : Clients := (w.create .admin).create .producer

def bridged : RuntimeFields :=
  { r with components :=
    { r.components with transactionBridge := some { producer := w.fresh .transactionalProducer } } }

variable {r w}

/-- Where the body of an `open` ends, and what it leaves. -/
inductive OpenBody (r : RuntimeFields) (w : Clients) (env : OpenEnv) :
    Option Raised × RuntimeFields × Clients → Prop
  | noAdmin {raised : Raised} (h : env.admin = some raised) : OpenBody r w env (some raised, r, w)
  | noProducer {raised : Raised} (admin : env.admin = none) (h : env.producer = some raised) :
      OpenBody r w env (some raised, r, w.create .admin)
  | unprobed {raised : Raised} (admin : env.admin = none) (producer : env.producer = none)
      (h : env.probe = some raised) : OpenBody r w env (some raised, r.equipped w, equipping w)
  | noTransactionalProducer {raised : Raised} (probed : env.Probed)
      (enabled : r.transactionEnabled = true) (h : env.transactionalProducer = some raised) :
      OpenBody r w env (some raised, r.equipped w, equipping w)
  | uninitialized {raised : Raised} (probed : env.Probed) (enabled : r.transactionEnabled = true)
      (producer : env.transactionalProducer = none) (h : env.initTransactions = some raised) :
      OpenBody r w env
        (some (.failure (normalizeKafkaError raised KafkaTransactionBridge.operationContract)),
          (r.equipped w).bridged (equipping w), (equipping w).create .transactionalProducer)
  | unreported {raised : Raised} (probed : env.Probed) (enabled : r.transactionEnabled = true)
      (producer : env.transactionalProducer = none) (init : env.initTransactions = none)
      (h : env.initialized = some raised) :
      OpenBody r w env
        (some raised, (r.equipped w).bridged (equipping w),
          ((equipping w).create .transactionalProducer).initTransactions
            ((equipping w).fresh .transactionalProducer))
  | transactional (probed : env.Probed) (enabled : r.transactionEnabled = true)
      (producer : env.transactionalProducer = none) (init : env.initTransactions = none)
      (initialized : env.initialized = none) :
      OpenBody r w env
        (env.opened, { (r.equipped w).bridged (equipping w) with opened := true },
          ((equipping w).create .transactionalProducer).initTransactions
            ((equipping w).fresh .transactionalProducer))
  | plain (probed : env.Probed) (disabled : r.transactionEnabled = false) :
      OpenBody r w env (env.opened, { r.equipped w with opened := true }, equipping w)

/-- Once the cluster has been probed, the engines are there. -/
theorem openBody_of_probed {env : OpenEnv} (probed : env.Probed) :
    r.openBody w env =
      match (r.equipped w).openTransactions (equipping w) env with
      | (some raised, r, w) => (some raised, r, w)
      | (none, r, w) => (env.opened, { r with opened := true }, w) := by
  obtain ⟨hadmin, hproducer, hprobe⟩ := probed
  unfold openBody
  rw [hadmin]
  dsimp only
  rw [hproducer]
  dsimp only
  rw [hprobe]
  rfl

theorem openBody_cases (env : OpenEnv) : OpenBody r w env (r.openBody w env) := by
  -- The cases stand in the order in which `open` makes its calls, each after the ones before it
  -- have returned.
  cases hadmin : env.admin with
  | some raised =>
    unfold openBody
    rw [hadmin]
    exact .noAdmin hadmin
  | none =>
  cases hproducer : env.producer with
  | some raised =>
    unfold openBody
    rw [hadmin]
    dsimp only
    rw [hproducer]
    exact .noProducer hadmin hproducer
  | none =>
  cases hprobe : env.probe with
  | some raised =>
    unfold openBody
    rw [hadmin]
    dsimp only
    rw [hproducer]
    dsimp only
    rw [hprobe]
    exact .unprobed hadmin hproducer hprobe
  | none =>
  have hprobed : env.Probed := ⟨hadmin, hproducer, hprobe⟩
  rw [openBody_of_probed hprobed]
  unfold openTransactions
  cases henabled : r.transactionEnabled with
  | false =>
    have : (r.equipped w).transactionEnabled = false := henabled
    rw [this, if_neg Bool.false_ne_true]
    exact .plain hprobed henabled
  | true =>
  have : (r.equipped w).transactionEnabled = true := henabled
  rw [this, if_pos rfl]
  cases htransactional : env.transactionalProducer with
  | some raised => exact .noTransactionalProducer hprobed henabled htransactional
  | none =>
  dsimp only
  cases hinit : env.initTransactions with
  | some raised => exact .uninitialized hprobed henabled htransactional hinit
  | none =>
  cases hinitialized : env.initialized with
  | some raised => exact .unreported hprobed henabled htransactional hinit hinitialized
  | none => exact .transactional hprobed henabled htransactional hinit hinitialized

end RuntimeFields

/-! ### Sound calls -/

/-- A runtime with its engines; the bridge is there exactly when transactions are
enabled. -/
structure RuntimeFields.Equipped (r : RuntimeFields) : Prop where
  probeEngine : r.components.probeEngine.isSome
  producerEngine : r.components.producerEngine.isSome
  consumerEngine : r.components.consumerEngine.isSome
  transactionBridge : r.components.transactionBridge.isSome = r.transactionEnabled

namespace Lifecycle

/-- Every client that was created since is closed, if it can be. -/
def ReleasedSince (after before : Lifecycle) : Prop :=
  ∀ client ∈ after.clients.created, client ∉ before.clients.created → client.kind ≠ .admin →
    client ∈ after.clients.closed

/-- What the lifecycle promises of a call. A runtime that counts as open has its engines;
an `open` that raises, if it is not refused by an open runtime, leaves the runtime not open
and what it created closed; and `close` comes to every component. -/
def Sound (x : Lifecycle × LifecycleCall) : Prop :=
  let after := lifecycle.next x.1 x.2
  (after.runtime.IsOpen → after.runtime.Equipped) ∧
    match x.2 with
    | .openRuntime _ =>
      (x.1.call x.2).1 ≠ none →
        (x.1.runtime.IsOpen ∧ after = x.1) ∨ (¬after.runtime.IsOpen ∧ after.ReleasedSince x.1)
    | .close _ => ∀ client ∈ x.1.runtime.components.clients, client ∈ after.clients.closed
    | _ => True

/-- The last report of an `open` returns, and no close raises before another one. -/
def Orderly : Lifecycle × LifecycleCall → Prop
  | (s, .openRuntime env) =>
    (env.ReachesReport s.runtime.transactionEnabled → env.opened = none) ∧
      (env.ClosesBridge s.runtime.transactionEnabled → env.close.flushTransactional = none)
  | (s, .close env) => s.runtime.components.Unhindered env.components
  | _ => True

instance : DecidablePred Orderly
  | (_, .openRuntime _) => inferInstanceAs (Decidable ((_ → _) ∧ (_ → _)))
  | (s, .close env) => inferInstanceAs (Decidable (s.runtime.components.Unhindered env.components))
  | (_, .rotateCredentials _ _) | (_, .join _ _) | (_, .transact _) => isTrue trivial

/-- Only an open runtime has components, and it has them all. -/
structure Kept (s : Lifecycle) : Prop where
  equipped : s.runtime.IsOpen → s.runtime.Equipped
  cleared : ¬s.runtime.IsOpen → s.runtime.components = {}

end Lifecycle

namespace RuntimeFields

variable {r : RuntimeFields} {w : Clients}

theorem closeComponents_eq (env : CloseEnv) :
    r.closeComponents w env =
      ((closeAll (r.components.closings env) w).1, { r with components := {} },
        (closeAll (r.components.closings env) w).2) := by
  unfold closeComponents
  rw [RuntimeComponents.close_eq_closeAll]

/-- A runtime that has not been opened is not open, whatever its components are. -/
theorem not_isOpen_of_opened (h : r.opened = false) : ¬r.IsOpen := by
  intro hopen
  exact Bool.false_ne_true (h.symm.trans hopen.1)

theorem not_isOpen_of_closed (h : r.closed = true) : ¬r.IsOpen := by
  intro hopen
  exact Bool.false_ne_true (hopen.2.symm.trans h)

/-- The runtime that an `open` opens has its engines. -/
theorem equipped_of_plain (hcleared : r.components = {}) (disabled : r.transactionEnabled = false) :
    Equipped { r.equipped w with opened := true } where
  probeEngine := rfl
  producerEngine := rfl
  consumerEngine := rfl
  transactionBridge := by
    change r.components.transactionBridge.isSome = r.transactionEnabled
    rw [hcleared, disabled]
    rfl

theorem equipped_of_transactional {w' : Clients} (enabled : r.transactionEnabled = true) :
    Equipped { (r.equipped w).bridged w' with opened := true } where
  probeEngine := rfl
  producerEngine := rfl
  consumerEngine := rfl
  transactionBridge := enabled.symm

/-- The bridge of an `open` has no transaction to abort. -/
theorem closing_fresh (client : Client) (env : CloseEnv) :
    BridgeComponent.closing { producer := client } env = env.flushTransactional := by
  unfold BridgeComponent.closing KafkaTransactionBridge.close KafkaTransactionBridge.abort
  cases hflush : env.flushTransactional <;> rfl

/-- What the handler of `open` makes of the end of its body. -/
def handled (env : CloseEnv) :
    Option Raised × RuntimeFields × Clients → Option Raised × RuntimeFields × Clients
  | (none, r, w) => (none, r, w)
  | (some raised, r, w) =>
    (some ((closeAll (r.components.closings env) w).1.getD raised), { r with components := {} },
      (closeAll (r.components.closings env) w).2)

/-- **What `open` comes to** in a runtime that was not opened yet. -/
theorem openRuntime_eq (hopened : r.opened = false) (hclosed : r.closed = false) (env : OpenEnv) :
    r.openRuntime w env = handled env.close (r.openBody w env) := by
  unfold openRuntime
  rw [hopened, hclosed, Bool.or_self, if_neg Bool.false_ne_true]
  generalize r.openBody w env = body
  obtain ⟨raised, r', w'⟩ := body
  cases raised with
  | none => rfl
  | some raised =>
    dsimp only
    rw [closeComponents_eq]
    rfl

end RuntimeFields

namespace RuntimeFields

variable {r : RuntimeFields} {w : Clients}

theorem closings_equipped (hcleared : r.components = {}) (env : CloseEnv) :
    (r.equipped w).components.closings env =
      [((w.create .admin).fresh .producer, env.producer)] := by
  unfold equipped
  rw [hcleared]
  rfl

theorem closings_bridged (hcleared : r.components = {}) (w' : Clients) (env : CloseEnv) :
    ((r.equipped w).bridged w').components.closings env =
      [(w'.fresh .transactionalProducer, env.flushTransactional),
        ((w.create .admin).fresh .producer, env.producer)] := by
  unfold equipped bridged RuntimeComponents.closings
  rw [hcleared]
  dsimp only
  rw [Option.toList_some, List.map_singleton, closing_fresh]
  rfl

end RuntimeFields

namespace Lifecycle

variable {s : Lifecycle}

/-- The outcome of an `open` in this state keeps the invariant, and releases what it
created when it raises. -/
structure Opens (s : Lifecycle) (outcome : Option Raised × RuntimeFields × Clients) : Prop where
  kept : Kept ⟨outcome.2.1, outcome.2.2⟩
  released : outcome.1 ≠ none →
    ¬outcome.2.1.IsOpen ∧ ReleasedSince ⟨outcome.2.1, outcome.2.2⟩ s

/-- A failure that is handled clears the components. -/
theorem Opens.of_handled {raised : Raised} {r : RuntimeFields} {w : Clients} {env : CloseEnv}
    (hopened : r.opened = false)
    (released : ∀ client ∈ w.created, client ∉ s.clients.created → client.kind ≠ .admin →
      client ∈ (closeAll (r.components.closings env) w).2.closed) :
    s.Opens (RuntimeFields.handled env (some raised, r, w)) where
  kept :=
    { equipped := fun hopen => absurd hopen (RuntimeFields.not_isOpen_of_opened hopened)
      cleared := fun _ => rfl }
  released _ := by
    refine ⟨RuntimeFields.not_isOpen_of_opened hopened, fun client hcreated => ?_⟩
    have hclients : (closeAll (r.components.closings env) w).2.created = w.created :=
      closeAll_created
    exact released client (hclients ▸ hcreated)

/-- An `open` that returns leaves the runtime with its engines. -/
theorem Opens.of_equipped {r : RuntimeFields} {w : Clients} {env : CloseEnv}
    (equipped : RuntimeFields.Equipped { r with opened := true }) (hclosed : r.closed = false) :
    s.Opens (RuntimeFields.handled env (none, { r with opened := true }, w)) where
  kept :=
    { equipped := fun _ => equipped
      cleared := fun hnot => absurd ⟨rfl, hclosed⟩ hnot }
  released h := absurd rfl h

/-- Whatever was created besides the admin client and these clients was there before. -/
theorem mem_of_created {w : Clients} {client : Client} (clients : List Client)
    (hcreated : client ∈ clients ++ (w.fresh .admin :: w.created)) (hnew : client ∉ w.created)
    (hkind : client.kind ≠ .admin) : client ∈ clients := by
  rcases List.mem_append.mp hcreated with hclient | hcreated
  · exact hclient
  rcases List.mem_cons.mp hcreated with rfl | hcreated
  · exact absurd rfl hkind
  · exact absurd hcreated hnew

theorem opens_of_openBody (hopened : s.runtime.opened = false) (hclosed : s.runtime.closed = false)
    (hcleared : s.runtime.components = {}) {env : OpenEnv}
    (orderly : Orderly (s, .openRuntime env)) :
    s.Opens (RuntimeFields.handled env.close (s.runtime.openBody s.clients env)) := by
  obtain ⟨hreports, hcloses⟩ := orderly
  have hbody := RuntimeFields.openBody_cases (r := s.runtime) (w := s.clients) env
  generalize s.runtime.openBody s.clients env = body at hbody
  -- A bridge that is closed lets its runtime close the producer.
  have hbridged : ∀ w : Clients, env.ClosesBridge s.runtime.transactionEnabled →
      ∀ client ∈ [(RuntimeFields.equipping s.clients).fresh .transactionalProducer,
        (s.clients.create .admin).fresh .producer],
      client ∈ (closeAll (((s.runtime.equipped s.clients).bridged
        (RuntimeFields.equipping s.clients)).components.closings env.close) w).2.closed := by
    intro w hclose client hclient
    rw [RuntimeFields.closings_bridged hcleared, hcloses hclose]
    exact mem_closeAll_of_unhindered (by simp) hclient
  cases hbody with
  | noAdmin h =>
    exact .of_handled hopened fun client hcreated hnew _ => absurd hcreated hnew
  | noProducer admin h =>
    refine .of_handled hopened fun client hcreated hnew hkind => ?_
    exact absurd (mem_of_created [] hcreated hnew hkind) List.not_mem_nil
  | unprobed admin producer h =>
    refine .of_handled hopened fun client hcreated hnew hkind => ?_
    rw [RuntimeFields.closings_equipped hcleared]
    exact mem_closeAll_of_unhindered (by simp)
      (mem_of_created [_] hcreated hnew hkind)
  | noTransactionalProducer probed enabled h =>
    refine .of_handled hopened fun client hcreated hnew hkind => ?_
    rw [RuntimeFields.closings_equipped hcleared]
    exact mem_closeAll_of_unhindered (by simp)
      (mem_of_created [_] hcreated hnew hkind)
  | uninitialized probed enabled producer h =>
    refine .of_handled hopened fun client hcreated hnew hkind => ?_
    exact hbridged _ ⟨probed, enabled, producer, by rw [h]; exact Option.some_ne_none _⟩ client
      (mem_of_created [_, _] hcreated hnew hkind)
  | unreported probed enabled producer init h =>
    refine .of_handled hopened fun client hcreated hnew hkind => ?_
    exact hbridged _ ⟨probed, enabled, producer, by rw [init, h]; exact Option.some_ne_none _⟩ client
      (mem_of_created [_, _] hcreated hnew hkind)
  | transactional probed enabled producer init initialized =>
    rw [hreports ⟨probed, fun _ => ⟨producer, init, initialized⟩⟩]
    exact .of_equipped (RuntimeFields.equipped_of_transactional enabled) hclosed
  | plain probed disabled =>
    rw [hreports ⟨probed, fun henabled => absurd (disabled.symm.trans henabled) Bool.false_ne_true⟩]
    exact .of_equipped (RuntimeFields.equipped_of_plain hcleared disabled) hclosed

/-- **An `open`.** -/
theorem Kept.openRuntime (h : s.Kept) {env : OpenEnv} (orderly : Orderly (s, .openRuntime env)) :
    (lifecycle.next s (.openRuntime env)).Kept ∧ Sound (s, .openRuntime env) := by
  by_cases hrefused : (s.runtime.opened || s.runtime.closed) = true
  · -- The runtime was opened or closed before: nothing happens.
    have hcall : s.call (.openRuntime env) =
        (some (.runtimeError "Kafka Adapter runtime cannot be opened in its current state"),
          s.runtime, s.clients) := by
      unfold call RuntimeFields.openRuntime
      exact if_pos hrefused
    have hnext : lifecycle.next s (.openRuntime env) = s := by
      unfold lifecycle
      dsimp only
      rw [hcall]
    unfold Sound
    dsimp only
    rw [hnext]
    refine ⟨h, h.equipped, fun _ => ?_⟩
    by_cases hopen : s.runtime.IsOpen
    · exact Or.inl ⟨hopen, rfl⟩
    · exact Or.inr ⟨hopen, fun client hcreated hnew => absurd hcreated hnew⟩
  · rw [Bool.or_eq_true, not_or] at hrefused
    have hopened : s.runtime.opened = false := by simpa using hrefused.1
    have hclosed : s.runtime.closed = false := by simpa using hrefused.2
    have hcall : s.call (.openRuntime env) =
        RuntimeFields.handled env.close (s.runtime.openBody s.clients env) :=
      RuntimeFields.openRuntime_eq hopened hclosed env
    have hopens := opens_of_openBody hopened hclosed
      (h.cleared (RuntimeFields.not_isOpen_of_opened hopened)) orderly
    rw [← hcall] at hopens
    exact ⟨hopens.kept, hopens.kept.equipped, fun hraises => Or.inr (hopens.released hraises)⟩

/-- The invariant does not look at the clients. -/
theorem Kept.of_runtime {s' : Lifecycle} (h : s.Kept) (hruntime : s'.runtime = s.runtime) :
    s'.Kept where
  equipped := by
    rw [hruntime]
    exact h.equipped
  cleared := by
    rw [hruntime]
    exact h.cleared

/-- What `close` leaves of a runtime that was not closed yet. -/
theorem close_snd (hclosed : s.runtime.closed = false) (env : RuntimeCloseEnv) :
    (s.runtime.close s.clients env).2 =
      ({ s.runtime with closed := true, components := {} },
        (closeAll (s.runtime.components.closings env.components) s.clients).2) := by
  unfold RuntimeFields.close
  rw [hclosed, if_neg Bool.false_ne_true, RuntimeFields.closeComponents_eq]
  dsimp only
  generalize closeAll (s.runtime.components.closings env.components) s.clients = closed
  obtain ⟨raised, w⟩ := closed
  cases raised <;> rfl

/-- `close` of a closed runtime does nothing. -/
theorem close_of_closed (hclosed : s.runtime.closed = true) (env : RuntimeCloseEnv) :
    (s.runtime.close s.clients env).2 = (s.runtime, s.clients) := by
  unfold RuntimeFields.close
  rw [hclosed, if_pos rfl]

/-- A runtime that is closed keeps no component. -/
theorem Kept.closed (h : s.Kept) (env : RuntimeCloseEnv) :
    Kept ⟨(s.runtime.close s.clients env).2.1, (s.runtime.close s.clients env).2.2⟩ := by
  cases hclosed : s.runtime.closed with
  | true =>
    rw [close_of_closed hclosed]
    exact h
  | false =>
    rw [close_snd hclosed]
    exact
      { equipped := fun hopen => absurd hopen (RuntimeFields.not_isOpen_of_closed rfl)
        cleared := fun _ => rfl }

/-- **A `close`.** -/
theorem Kept.close (h : s.Kept) {env : RuntimeCloseEnv} (orderly : Orderly (s, .close env)) :
    (lifecycle.next s (.close env)).Kept ∧ Sound (s, .close env) := by
  have hkept := h.closed env
  refine ⟨hkept, hkept.equipped, fun client hclient => ?_⟩
  change client ∈ (s.runtime.close s.clients env).2.2.closed
  cases hclosed : s.runtime.closed with
  | true =>
    -- A closed runtime has no component left.
    rw [h.cleared (RuntimeFields.not_isOpen_of_closed hclosed)] at hclient
    exact absurd hclient List.not_mem_nil
  | false =>
    rw [close_snd hclosed]
    refine mem_closeAll_of_unhindered orderly ?_
    rwa [RuntimeComponents.map_closings]

end Lifecycle

namespace RuntimeFields

variable {r : RuntimeFields} {w : Clients}

/-- The probe of a replacement leaves it as the open has left it. -/
theorem equipped_of_opened {env : RotationEnv} {r' replacement : RuntimeFields}
    {w' w'' : Clients} {raised : Option Raised} (equipped : r'.Equipped)
    (h : (match handled env.opening.close (raised, r', w'') with
      | (some raised, _, w) => (.error raised, w)
      | (none, replacement, w) =>
        match env.probe with
        | none => (Except.ok replacement, w)
        | some raised =>
          match replacement.close w env.close with
          | (closing, _, w) => (.error (closing.getD raised), w)) = (.ok replacement, w')) :
    replacement.Equipped := by
  cases raised with
  | some raised => simp [handled] at h
  | none =>
    dsimp only [handled] at h
    split at h
    · obtain ⟨hreplacement, -⟩ := Prod.mk.inj h
      obtain rfl := Except.ok.inj hreplacement
      exact equipped
    · simp at h

/-- A replacement that is ready for the swap has its engines. -/
theorem equipped_of_prepareReplacement {context : AdapterCreateContext} {env : RotationEnv}
    {replacement : RuntimeFields} {w' : Clients}
    (h : r.prepareReplacement w context env = (.ok replacement, w')) : replacement.Equipped := by
  unfold prepareReplacement at h
  split at h
  · simp at h
  split at h
  · simp at h
  rw [openRuntime_eq rfl rfl] at h
  have hbody := openBody_cases (r := create context) (w := w) env.opening
  generalize (create context).openBody w env.opening = body at h hbody
  cases hbody with
  | transactional probed enabled producer init initialized =>
    exact equipped_of_opened (equipped_of_transactional enabled) h
  | plain probed disabled => exact equipped_of_opened (equipped_of_plain rfl disabled) h
  | noAdmin _ | noProducer _ _ | unprobed _ _ _ | noTransactionalProducer _ _ _
  | uninitialized _ _ _ _ | unreported _ _ _ _ _ => simp [handled] at h

/-- Only an open runtime passes `_require_open`. -/
theorem requireOpen_eq_none_iff : r.requireOpen = none ↔ r.IsOpen := by
  unfold requireOpen IsOpen
  cases r.opened <;> cases r.closed <;> simp

end RuntimeFields

namespace Lifecycle

variable {s : Lifecycle}

/-- **A rotation.** -/
theorem Kept.rotateCredentials (h : s.Kept) (context : AdapterCreateContext) (env : RotationEnv) :
    (lifecycle.next s (.rotateCredentials context env)).Kept := by
  change Kept ⟨(s.runtime.rotateCredentials s.clients context env).2.1,
    (s.runtime.rotateCredentials s.clients context env).2.2⟩
  unfold RuntimeFields.rotateCredentials
  split
  · exact h.of_runtime rfl
  next replacement w hprepared =>
  have hequipped := RuntimeFields.equipped_of_prepareReplacement hprepared
  -- Another thread may have closed the runtime while the replacement was being opened.
  have hmeanwhile : Kept ⟨(s.runtime.meanwhile w env).1, (s.runtime.meanwhile w env).2⟩ := by
    unfold RuntimeFields.meanwhile
    cases env.meanwhile with
    | none => exact h.of_runtime rfl
    | some closing => exact Kept.closed (s := ⟨s.runtime, w⟩) (h.of_runtime rfl) closing
  generalize s.runtime.meanwhile w env = others at hmeanwhile ⊢
  obtain ⟨r, w⟩ := others
  dsimp only at hmeanwhile ⊢
  unfold RuntimeFields.swapReplacement
  cases hrequire : r.requireOpen with
  | some raised => exact hmeanwhile
  | none =>
    have hopen : r.IsOpen := RuntimeFields.requireOpen_eq_none_iff.mp hrequire
    -- The swap takes every component from the replacement, which was opened completely.
    have hswapped : ∀ clients : Clients, Kept
        ⟨{ r with
            binding := replacement.binding
            settings := replacement.settings
            compiler := replacement.compiler
            components := replacement.components }, clients⟩ := fun clients =>
      { equipped := fun _ =>
          ⟨hequipped.probeEngine, hequipped.producerEngine, hequipped.consumerEngine,
            hequipped.transactionBridge⟩
        cleared := fun hnot => absurd hopen hnot }
    dsimp only
    split <;> exact hswapped _

/-- **A group is joined.** -/
theorem Kept.join (h : s.Kept) (consumer subscribe : Option Raised) :
    (lifecycle.next s (.join consumer subscribe)).Kept := by
  change Kept ⟨(s.runtime.join s.clients consumer subscribe).2.1,
    (s.runtime.join s.clients consumer subscribe).2.2⟩
  unfold RuntimeFields.join
  split
  · next consumers hrequire hconsumers =>
    -- only an open runtime gets as far as the consumers
    have hopen : s.runtime.IsOpen := RuntimeFields.requireOpen_eq_none_iff.mp hrequire
    have hequipped := h.equipped hopen
    split
    · exact h.of_runtime rfl
    dsimp only
    split
    · exact h.of_runtime rfl
    · exact
        { equipped := fun _ =>
            ⟨hequipped.probeEngine, hequipped.producerEngine, rfl, hequipped.transactionBridge⟩
          cleared := fun hnot => absurd hopen hnot }
  · exact h
  · exact h

/-- **The bridge is used.** -/
theorem Kept.transact (h : s.Kept) (bridge : KafkaTransactionBridge) :
    (lifecycle.next s (.transact bridge)).Kept where
  equipped hopen := by
    have hequipped := h.equipped hopen
    refine ⟨hequipped.probeEngine, hequipped.producerEngine, hequipped.consumerEngine, ?_⟩
    exact Option.isSome_map.trans hequipped.transactionBridge
  cleared hnot := by
    have hcleared : s.runtime.components = {} := h.cleared hnot
    unfold lifecycle call
    dsimp only
    rw [hcleared]
    rfl

/-- Every orderly call keeps the invariant, and is sound. -/
theorem Kept.next (h : s.Kept) {call : LifecycleCall} (orderly : Orderly (s, call)) :
    (lifecycle.next s call).Kept ∧ Sound (s, call) := by
  cases call with
  | openRuntime env => exact h.openRuntime orderly
  | close env => exact h.close orderly
  | rotateCredentials context env =>
    have hkept := h.rotateCredentials context env
    exact ⟨hkept, hkept.equipped, trivial⟩
  | join consumer subscribe =>
    have hkept := h.join consumer subscribe
    exact ⟨hkept, hkept.equipped, trivial⟩
  | transact bridge =>
    have hkept := h.transact bridge
    exact ⟨hkept, hkept.equipped, trivial⟩

theorem kept_create (context : AdapterCreateContext) : (create context).Kept where
  equipped hopen := absurd hopen (RuntimeFields.not_isOpen_of_opened rfl)
  cleared _ := rfl

/-- **The lifecycle is sound** in every run whose opens report and whose closes reach every
component. -/
theorem sound_of_orderly (context : AdapterCreateContext) (calls : List LifecycleCall)
    (orderly : ∀ x ∈ lifecycle.steps (create context) calls, Orderly x) :
    ∀ x ∈ lifecycle.steps (create context) calls, Sound x := by
  intro x hx
  have hkept := Machine.steps_induction (I := Kept) (C := fun s call => Orderly (s, call))
    (fun s call h _ hC => (h.next hC).1) (kept_create context) (fun _ _ => trivial) orderly x hx
  exact (hkept.next (orderly x hx)).2

end Lifecycle

namespace Sample

def context : AdapterCreateContext where
  binding := { id := "binding", transactionalId := some "adapter", readCommitted := true }
  credential := "first"

/-- A runtime is opened, joins two groups and is closed. -/
def lifetime : List LifecycleCall :=
  [.openRuntime {}, .join none none, .join none none, .close {}]

end Sample

namespace Lifecycle

theorem sound_of_orderly_lifetime :
    (∀ x ∈ lifecycle.steps (create Sample.context) Sample.lifetime, Orderly x) ∧
      ∀ x ∈ lifecycle.steps (create Sample.context) Sample.lifetime, Sound x := by
  have horderly : ∀ x ∈ lifecycle.steps (create Sample.context) Sample.lifetime, Orderly x := by
    decide
  exact ⟨horderly, sound_of_orderly Sample.context Sample.lifetime horderly⟩

/-- **An open that fails to report.** The sink raises at the last report of `open`; the call
raises, its handler clears the components, and the runtime counts as open. -/
theorem unreported_open_has_no_engines :
    let opening : LifecycleCall := .openRuntime { opened := some .other }
    ((create Sample.context).call opening).1 = some .other ∧
      (lifecycle.next (create Sample.context) opening).runtime.IsOpen ∧
      ¬∀ x ∈ lifecycle.steps (create Sample.context) [opening], Sound x := by
  refine ⟨by decide, by decide, fun h => ?_⟩
  have hequipped := (h _ List.mem_cons_self).1 (by decide)
  exact Bool.false_ne_true hequipped.producerEngine

end Lifecycle

end MeridianKafka
