import MeridianKafka.Runtime.Lifecycle

/-!
# A failed rotation

A rotation that raises should leave the runtime as it was, with its clients working, and
its replacement closed. The replacement initializes a producer with the transactional id of
the runtime before anything is certain, and from then on the old one is fenced, whatever
becomes of the rotation. A runtime that turns out to be closed at the swap leaves its
replacement open, and after the swap there is no way back.

So a rotation that raises is a no-op exactly when it raises before `init_transactions`
returned, or found no transactional producer to fence, and in time for the replacement to
be closed as a whole (`rotation_noOp_iff`).
-/

namespace MeridianKafka

open Framework

/-! ### Accounts of the clients -/

/-- Clients have numbers, and what is closed was created. -/
structure Clients.Numbered (w : Clients) : Prop where
  id_lt : ∀ client ∈ w.created, client.id < w.created.length
  closed_created : ∀ client ∈ w.closed, client ∈ w.created

/-- The clients of a runtime were created, each of its kind. -/
structure RuntimeFields.KnownTo (r : RuntimeFields) (w : Clients) : Prop where
  created : ∀ client ∈ r.components.clients, client ∈ w.created
  bridge : ∀ component ∈ r.components.transactionBridge,
    component.producer.kind = .transactionalProducer
  consumers : ∀ client ∈ r.components.consumerEngine.getD [], client.kind = .consumer
  producer : ∀ client ∈ r.components.producerEngine, client.kind = .producer

namespace Clients

variable {w : Clients}

theorem Numbered.fresh_not_mem (h : w.Numbered) (kind : ClientKind) : w.fresh kind ∉ w.created :=
  fun hmem => (h.id_lt _ hmem).false

theorem Numbered.create (h : w.Numbered) (kind : ClientKind) : (w.create kind).Numbered where
  id_lt client hclient := by
    change client.id < w.created.length + 1
    rcases List.mem_cons.mp hclient with rfl | hclient
    · exact Nat.lt_succ_self _
    · exact (h.id_lt client hclient).trans (Nat.lt_succ_self _)
  closed_created client hclient := List.mem_cons_of_mem _ (h.closed_created client hclient)

theorem Numbered.initTransactions (h : w.Numbered) (client : Client) :
    (w.initTransactions client).Numbered :=
  ⟨h.id_lt, h.closed_created⟩

theorem Numbered.closeAll (h : w.Numbered) {closings : List (Client × Option Raised)}
    (hcreated : ∀ client ∈ closings.map Prod.fst, client ∈ w.created) :
    (closeAll closings w).2.Numbered where
  id_lt := by
    rw [closeAll_created]
    exact h.id_lt
  closed_created client hclient := by
    rw [closeAll_created]
    exact (of_mem_closeAll hclient).elim (h.closed_created client) (hcreated client)

theorem Numbered.equipping (h : w.Numbered) : (RuntimeFields.equipping w).Numbered :=
  (h.create .admin).create .producer

end Clients

namespace RuntimeFields

variable {r : RuntimeFields} {w w' : Clients}

theorem KnownTo.mono (h : r.KnownTo w) (hcreated : w.created ⊆ w'.created) : r.KnownTo w' :=
  ⟨fun client hclient => hcreated (h.created client hclient), h.bridge, h.consumers, h.producer⟩

theorem knownTo_of_cleared (h : r.components = {}) : r.KnownTo w where
  created client hclient := by
    rw [h] at hclient
    exact absurd hclient List.not_mem_nil
  bridge component hcomponent := by
    rw [h] at hcomponent
    exact absurd hcomponent (Option.not_mem_none _)
  consumers client hclient := by
    rw [h] at hclient
    exact absurd hclient List.not_mem_nil
  producer client hclient := by
    rw [h] at hclient
    exact absurd hclient (Option.not_mem_none _)

/-- The clients of a runtime that has closed its components. -/
theorem KnownTo.closeAll (h : r.KnownTo w) (numbered : w.Numbered) (env : CloseEnv) :
    (closeAll (r.components.closings env) w).2.Numbered :=
  numbered.closeAll fun client hclient => by
    rw [RuntimeComponents.map_closings] at hclient
    exact h.created client hclient

/-- The fields that an `open` of a runtime without components comes to. -/
theorem knownTo_equipped (hcleared : r.components = {}) : (r.equipped w).KnownTo (equipping w) where
  created client hclient := by
    unfold equipped at hclient
    rw [hcleared] at hclient
    exact List.mem_cons.mpr (Or.inl (List.mem_singleton.mp hclient))
  bridge component hcomponent := by
    unfold equipped at hcomponent
    rw [hcleared] at hcomponent
    exact absurd hcomponent (Option.not_mem_none _)
  consumers client hclient := absurd hclient List.not_mem_nil
  producer client hclient := by
    obtain rfl := Option.some.inj hclient
    rfl

theorem knownTo_bridged (hcleared : r.components = {}) :
    ((r.equipped w).bridged (equipping w)).KnownTo
      ((equipping w).create .transactionalProducer) where
  created client hclient := by
    unfold equipped bridged at hclient
    rw [hcleared] at hclient
    rcases List.mem_cons.mp hclient with rfl | hclient
    · exact List.mem_cons_self
    · exact List.mem_cons_of_mem _ (List.mem_cons.mpr (Or.inl (List.mem_singleton.mp hclient)))
  bridge component hcomponent := by
    obtain rfl := Option.some.inj hcomponent
    rfl
  consumers client hclient := absurd hclient List.not_mem_nil
  producer client hclient := by
    obtain rfl := Option.some.inj hclient
    rfl

end RuntimeFields

/-! ### Every call keeps the accounts -/

/-- The accounts of a runtime: its clients, and what it has before it is opened. -/
structure Lifecycle.Accounted (s : Lifecycle) : Prop where
  numbered : s.clients.Numbered
  known : s.runtime.KnownTo s.clients
  unopened : s.runtime.opened = false → s.runtime.components = {}

/-- A call leaves accounts, and forgets no client that was created. -/
structure Leaves (w : Clients) (outcome : Option Raised × RuntimeFields × Clients) : Prop where
  accounted : Lifecycle.Accounted ⟨outcome.2.1, outcome.2.2⟩
  created : w.created ⊆ outcome.2.2.created

namespace RuntimeFields

variable {r : RuntimeFields} {w : Clients}

theorem leaves_cleared {r' : RuntimeFields} {w' : Clients} (raised : Option Raised)
    (hcleared : r'.components = {}) (numbered : w'.Numbered) (created : w.created ⊆ w'.created) :
    Leaves w (raised, r', w') :=
  ⟨⟨numbered, knownTo_of_cleared hcleared, fun _ => hcleared⟩, created⟩

theorem created_subset_equipping : w.created ⊆ (equipping w).created := fun _ hclient =>
  List.mem_cons_of_mem _ (List.mem_cons_of_mem _ hclient)

theorem created_subset_bridging :
    w.created ⊆ ((equipping w).create .transactionalProducer).created := fun _ hclient =>
  List.mem_cons_of_mem _ (created_subset_equipping hclient)

/-- A failure that is handled leaves no component. -/
theorem leaves_handled {r' : RuntimeFields} {w' : Clients} {raised : Raised} (env : CloseEnv)
    (numbered : w'.Numbered) (known : r'.KnownTo w') (created : w.created ⊆ w'.created) :
    Leaves w (handled env (some raised, r', w')) := by
  refine leaves_cleared _ rfl (known.closeAll numbered env) ?_
  rw [closeAll_created]
  exact created

/-- The body of an `open` of a runtime without components. -/
theorem leaves_openBody (hcleared : r.components = {}) (numbered : w.Numbered) (env : OpenEnv) :
    Leaves w (handled env.close (r.openBody w env)) := by
  have hbody := openBody_cases (r := r) (w := w) env
  generalize r.openBody w env = body at hbody
  -- The branches in which `open` runs to its end; whether telemetry raises decides whether it
  -- cleans up.
  have hplain : ∀ {r' : RuntimeFields} {w' : Clients} (raised : Option Raised), w'.Numbered →
      r'.KnownTo w' → w.created ⊆ w'.created →
      Leaves w (handled env.close (raised, { r' with opened := true }, w')) := by
    intro r' w' raised hnumbered hknown hcreated
    have hknown' : KnownTo { r' with opened := true } w' :=
      ⟨hknown.created, hknown.bridge, hknown.consumers, hknown.producer⟩
    cases raised with
    | some raised => exact leaves_handled env.close hnumbered hknown' hcreated
    | none => exact ⟨⟨hnumbered, hknown', fun h => absurd h.symm Bool.false_ne_true⟩, hcreated⟩
  have hbridged := (numbered.equipping).create .transactionalProducer
  -- In the others the clients created up to the failure are closed again.
  cases hbody with
  | noAdmin h =>
    exact leaves_handled env.close numbered (knownTo_of_cleared hcleared) fun _ hclient => hclient
  | noProducer admin h =>
    exact leaves_handled env.close (numbered.create .admin) (knownTo_of_cleared hcleared)
      fun _ hclient => List.mem_cons_of_mem _ hclient
  | unprobed _ _ _ | noTransactionalProducer _ _ _ =>
    exact leaves_handled env.close numbered.equipping (knownTo_equipped hcleared)
      created_subset_equipping
  | uninitialized _ _ _ _ =>
    exact leaves_handled env.close hbridged (knownTo_bridged hcleared) created_subset_bridging
  | unreported _ _ _ _ _ =>
    exact leaves_handled env.close (hbridged.initTransactions _)
      ((knownTo_bridged hcleared).mono fun _ hclient => hclient) created_subset_bridging
  | transactional _ _ _ _ _ =>
    exact hplain env.opened (hbridged.initTransactions _)
      ((knownTo_bridged hcleared).mono fun _ hclient => hclient) created_subset_bridging
  | plain _ _ =>
    exact hplain env.opened numbered.equipping (knownTo_equipped hcleared) created_subset_equipping

end RuntimeFields

namespace Lifecycle

variable {s : Lifecycle}

theorem Accounted.leaves_self (h : s.Accounted) (raised : Option Raised) :
    Leaves s.clients (raised, s.runtime, s.clients) :=
  ⟨h, fun _ hclient => hclient⟩

theorem Accounted.openRuntime (h : s.Accounted) (env : OpenEnv) :
    Leaves s.clients (s.runtime.openRuntime s.clients env) := by
  by_cases hrefused : (s.runtime.opened || s.runtime.closed) = true
  · unfold RuntimeFields.openRuntime
    rw [if_pos hrefused]
    exact h.leaves_self _
  · rw [Bool.or_eq_true, not_or] at hrefused
    have hopened : s.runtime.opened = false := by simpa using hrefused.1
    rw [RuntimeFields.openRuntime_eq hopened (by simpa using hrefused.2)]
    exact RuntimeFields.leaves_openBody (h.unopened hopened) h.numbered env

theorem Accounted.close (h : s.Accounted) (env : RuntimeCloseEnv) :
    Leaves s.clients (s.runtime.close s.clients env) := by
  cases hclosed : s.runtime.closed with
  | true =>
    have hsame := close_of_closed hclosed env
    generalize s.runtime.close s.clients env = outcome at hsame
    obtain ⟨raised, r, w⟩ := outcome
    obtain ⟨rfl, rfl⟩ := Prod.mk.inj hsame
    exact h.leaves_self raised
  | false =>
    have hclosing := close_snd hclosed env
    generalize s.runtime.close s.clients env = outcome at hclosing
    obtain ⟨raised, r, w⟩ := outcome
    obtain ⟨rfl, rfl⟩ := Prod.mk.inj hclosing
    refine RuntimeFields.leaves_cleared raised rfl
      (h.known.closeAll h.numbered env.components) ?_
    rw [closeAll_created]
    exact fun _ hclient => hclient

theorem Accounted.meanwhile (h : s.Accounted) (env : RotationEnv) :
    Leaves s.clients (none, s.runtime.meanwhile s.clients env) := by
  unfold RuntimeFields.meanwhile
  cases env.meanwhile with
  | none => exact h.leaves_self none
  | some closing => exact ⟨(h.close closing).accounted, (h.close closing).created⟩

/-- Other clients do not disturb the accounts of a runtime. -/
theorem Accounted.mono (h : s.Accounted) {w : Clients} (numbered : w.Numbered)
    (created : s.clients.created ⊆ w.created) : Accounted ⟨s.runtime, w⟩ :=
  ⟨numbered, h.known.mono created, h.unopened⟩

/-- A replacement keeps its own accounts, beside those of the runtime. -/
theorem Accounted.prepareReplacement (h : s.Accounted) (context : AdapterCreateContext)
    (env : RotationEnv) :
    (s.runtime.prepareReplacement s.clients context env).2.Numbered ∧
      s.clients.created ⊆ (s.runtime.prepareReplacement s.clients context env).2.created ∧
        ∀ replacement,
          (s.runtime.prepareReplacement s.clients context env).1 = .ok replacement →
          replacement.KnownTo (s.runtime.prepareReplacement s.clients context env).2 := by
  have hself : s.clients.Numbered ∧ s.clients.created ⊆ s.clients.created :=
    ⟨h.numbered, fun _ hclient => hclient⟩
  unfold RuntimeFields.prepareReplacement
  split
  · exact ⟨hself.1, hself.2, by simp⟩
  split
  · exact ⟨hself.1, hself.2, by simp⟩
  -- The replacement starts with no clients of its own, so it is accounted for by whatever exists.
  have hcreate : Accounted ⟨.create context, s.clients⟩ :=
    ⟨h.numbered, RuntimeFields.knownTo_of_cleared rfl, fun _ => rfl⟩
  have hopened := hcreate.openRuntime env.opening
  dsimp only at hopened
  generalize (RuntimeFields.create context).openRuntime s.clients env.opening = opened at hopened
  obtain ⟨raised, replacement, w⟩ := opened
  obtain ⟨haccounted, hcreated⟩ := hopened
  dsimp only at haccounted hcreated
  cases raised with
  | some raised => exact ⟨haccounted.numbered, hcreated, by simp⟩
  | none =>
  dsimp only
  cases env.probe with
  | none =>
    refine ⟨haccounted.numbered, hcreated, fun replacement' heq => ?_⟩
    obtain rfl := Except.ok.inj heq
    exact haccounted.known
  | some raised =>
    -- The probe raised: the replacement is closed before the failure is reported.
    have hclosed := haccounted.close env.close
    dsimp only at hclosed ⊢
    generalize replacement.close w env.close = closed at hclosed ⊢
    obtain ⟨closing, r, w'⟩ := closed
    exact ⟨hclosed.accounted.numbered, List.Subset.trans hcreated hclosed.created, by simp⟩

theorem Accounted.rotateCredentials (h : s.Accounted) (context : AdapterCreateContext)
    (env : RotationEnv) : Leaves s.clients (s.runtime.rotateCredentials s.clients context env) := by
  obtain ⟨hnumbered, hcreated, hreplacement⟩ := h.prepareReplacement context env
  unfold RuntimeFields.rotateCredentials
  generalize s.runtime.prepareReplacement s.clients context env = prepared at *
  obtain ⟨prepared, w⟩ := prepared
  cases prepared with
  | error raised => exact ⟨h.mono hnumbered hcreated, hcreated⟩
  | ok replacement =>
  have hknown := hreplacement replacement rfl
  have hmeanwhile := (h.mono hnumbered hcreated).meanwhile env
  dsimp only at hmeanwhile hcreated hknown ⊢
  generalize s.runtime.meanwhile w env = others at hmeanwhile ⊢
  obtain ⟨r, w'⟩ := others
  obtain ⟨haccounted, hmore⟩ := hmeanwhile
  dsimp only at haccounted hmore ⊢
  unfold RuntimeFields.swapReplacement
  -- Meanwhile the runtime may have been closed.
  cases hrequire : r.requireOpen with
  | some raised => exact ⟨haccounted, List.Subset.trans hcreated hmore⟩
  | none =>
    have hopen := RuntimeFields.requireOpen_eq_none_iff.mp hrequire
    have hclosed := haccounted.known.closeAll haccounted.numbered env.retire
    have hknown' := hknown.mono hmore
    have hall : (closeAll (r.components.closings env.retire) w').2.created = w'.created :=
      closeAll_created
    -- The clients of the replacement are known, however the close of the old ones ends.
    have hleaves : ∀ raised, Leaves s.clients (raised,
        { r with
          binding := replacement.binding
          settings := replacement.settings
          compiler := replacement.compiler
          components := replacement.components },
        (closeAll (r.components.closings env.retire) w').2) := fun raised =>
      { accounted :=
          { numbered := hclosed
            known := ⟨fun client hclient => hall ▸ hknown'.created client hclient, hknown'.bridge,
              hknown'.consumers, hknown'.producer⟩
            unopened := fun hunopened =>
              absurd (hunopened.symm.trans hopen.1) Bool.false_ne_true }
        created := hall ▸ List.Subset.trans hcreated hmore }
    dsimp only
    rw [RuntimeComponents.close_eq_closeAll]
    generalize closeAll (r.components.closings env.retire) w' = closed at hleaves ⊢
    obtain ⟨raised, w''⟩ := closed
    cases raised <;> exact hleaves _

theorem Accounted.join (h : s.Accounted) (consumer subscribe : Option Raised) :
    Leaves s.clients (s.runtime.join s.clients consumer subscribe) := by
  unfold RuntimeFields.join
  split
  swap
  · exact h.leaves_self _
  swap
  · exact h.leaves_self _
  next consumers hrequire hconsumers =>
  split
  · exact h.leaves_self _
  dsimp only
  have hcreated : s.clients.created ⊆ (s.clients.create .consumer).created := fun _ hclient =>
    List.mem_cons_of_mem _ hclient
  split
  · exact ⟨h.mono (h.numbered.create .consumer) hcreated, hcreated⟩
  have hopen := RuntimeFields.requireOpen_eq_none_iff.mp hrequire
  refine ⟨⟨h.numbered.create .consumer, ?_, fun hunopened => ?_⟩, hcreated⟩
  · -- The new client joins the consumers that the engine had.
    have hcases : ∀ client ∈ consumers ++ [s.clients.fresh .consumer],
        client ∈ s.runtime.components.consumerEngine.getD [] ∨
          client = s.clients.fresh .consumer := by
      intro client hclient
      rw [hconsumers]
      exact (List.mem_append.mp hclient).imp_right List.mem_singleton.mp
    refine ⟨fun client hclient => ?_, h.known.bridge, fun client hclient => ?_, h.known.producer⟩
    · rw [RuntimeComponents.clients, List.mem_append, List.mem_append] at hclient
      rcases hclient with (hconsumer | hbridge) | hproducer
      · rcases hcases client hconsumer with hclient | rfl
        · exact hcreated (h.known.created client
            (List.mem_append_left _ (List.mem_append_left _ hclient)))
        · exact List.mem_cons_self
      · exact hcreated (h.known.created client
          (List.mem_append_left _ (List.mem_append_right _ hbridge)))
      · exact hcreated (h.known.created client (List.mem_append_right _ hproducer))
    · rcases hcases client hclient with hclient | rfl
      · exact h.known.consumers client hclient
      · rfl
  · exact absurd (hunopened.symm.trans hopen.1) Bool.false_ne_true

theorem Accounted.transact (h : s.Accounted) (bridge : KafkaTransactionBridge) :
    Leaves s.clients (s.call (.transact bridge)) := by
  refine ⟨⟨h.numbered, ?_, fun hunopened => ?_⟩, fun _ hclient => hclient⟩
  · -- The producer of the bridge stays.
    have hproducer : ∀ component ∈ s.runtime.components.transactionBridge.map ({ · with bridge }),
        ∃ component' ∈ s.runtime.components.transactionBridge,
          component.producer = component'.producer := by
      intro component hcomponent
      obtain ⟨component', hmem, rfl⟩ := Option.mem_map.mp hcomponent
      exact ⟨component', hmem, rfl⟩
    refine ⟨fun client hclient => h.known.created client ?_, fun component hcomponent => ?_,
      h.known.consumers, h.known.producer⟩
    · unfold RuntimeComponents.clients call at hclient
      unfold RuntimeComponents.clients
      dsimp only at hclient
      rw [Option.map_map] at hclient
      exact hclient
    · obtain ⟨component', hmem, heq⟩ := hproducer component hcomponent
      rw [heq]
      exact h.known.bridge component' hmem
  · have hcleared : s.runtime.components = {} := h.unopened hunopened
    unfold call
    dsimp only
    rw [hcleared]
    rfl

/-- Every call keeps the accounts. -/
theorem Accounted.next (h : s.Accounted) (call : LifecycleCall) :
    (lifecycle.next s call).Accounted := by
  cases call with
  | openRuntime env => exact (h.openRuntime env).accounted
  | close env => exact (h.close env).accounted
  | rotateCredentials context env => exact (h.rotateCredentials context env).accounted
  | join consumer subscribe => exact (h.join consumer subscribe).accounted
  | transact bridge => exact (h.transact bridge).accounted

theorem accounted_play (context : AdapterCreateContext) (calls : List LifecycleCall) :
    (lifecycle.play (create context) calls).Accounted := by
  refine Machine.play_induction (C := fun _ _ => True) (fun s call h _ _ => h.next call) ?_
    (fun _ _ => trivial) fun _ _ => trivial
  exact
    { numbered := ⟨fun client hclient => absurd hclient List.not_mem_nil,
        fun client hclient => absurd hclient List.not_mem_nil⟩
      known := RuntimeFields.knownTo_of_cleared rfl
      unopened := fun _ => rfl }

end Lifecycle

/-! ### What a rotation may not do -/

namespace Lifecycle

/-- The runtime as the others leave it: a rotation that comes to the lock finds what they
did meanwhile. -/
def others (s : Lifecycle) (context : AdapterCreateContext) (env : RotationEnv) : RuntimeFields :=
  match s.runtime.prepareReplacement s.clients context env with
  | (.error _, _) => s.runtime
  | (.ok _, w) => (s.runtime.meanwhile w env).1

/-- A rotation has done nothing: the fields are those that the others leave, the clients
of its replacement are closed, and the clients of the runtime that worked still do. -/
structure NoOp (s : Lifecycle) (others : RuntimeFields) (after : Lifecycle) : Prop where
  runtime : after.runtime = others
  released : after.ReleasedSince s
  works : ∀ client ∈ others.components.clients, s.clients.Works client → after.clients.Works client

/-- A rotation is a no-op if it raises. -/
def FailsHarmlessly (s : Lifecycle) (context : AdapterCreateContext) (env : RotationEnv) : Prop :=
  let outcome := s.runtime.rotateCredentials s.clients context env
  outcome.1 ≠ none → s.NoOp (s.others context env) ⟨outcome.2.1, outcome.2.2⟩

/-- The runtime has a transactional producer that is not fenced. -/
def BridgeWorks (s : Lifecycle) : Prop :=
  ∃ component ∈ s.runtime.components.transactionBridge, s.clients.Works component.producer

/-- Nothing raises from the lock on. -/
structure Swaps (s : Lifecycle) (env : RotationEnv) : Prop where
  isOpen : s.runtime.IsOpen
  undisturbed : env.meanwhile = none
  retires : ∀ closing ∈ s.runtime.components.closings env.retire, closing.2 = none
  rotated : env.rotated = none

/-- The rotations that are no-ops when they raise, by how far they come: before the
replacement calls `init_transactions`, nothing has happened yet; when that raises, the
replacement has to be closed as a whole; after it, the runtime must have had no
transactional producer to lose; and from the lock on nothing may raise. -/
def HarmlessRotation (s : Lifecycle) (context : AdapterCreateContext) (env : RotationEnv) : Prop :=
  if env.fromContext ≠ none ∨ context.binding ≠ s.runtime.binding ∨ ¬env.opening.Probed then True
  else if context.binding.transactionEnabled = true then
    if env.opening.transactionalProducer ≠ none then True
    else if env.opening.initTransactions ≠ none then
      env.opening.close.flushTransactional = none
    else if env.opening.initialized ≠ none ∨ env.opening.opened ≠ none then
      env.opening.close.flushTransactional = none ∧ ¬s.BridgeWorks
    else if env.probe ≠ none then
      env.close.components.flushTransactional = none ∧ ¬s.BridgeWorks
    else s.Swaps env
  else if env.opening.opened ≠ none ∨ env.probe ≠ none then True
  else s.Swaps env

variable {s : Lifecycle}

/-- What still works of the runtime when nobody was fenced. -/
theorem Accounted.works_of_unfenced (h : s.Accounted) {w : Clients}
    (hclosed : ∀ client ∈ w.closed, client ∈ s.clients.closed ∨ client ∉ s.clients.created)
    (hholder : w.holder = s.clients.holder) :
    ∀ client ∈ s.runtime.components.clients, s.clients.Works client → w.Works client := by
  intro client hclient hworks
  refine ⟨fun hmem => ?_, fun hkind => hholder.trans (hworks.2 hkind)⟩
  exact (hclosed client hmem).elim hworks.1 fun hnot => hnot (h.known.created client hclient)

/-- What still works of the runtime when its transactional producer was fenced. -/
theorem Accounted.works_iff_of_fenced (h : s.Accounted) {w : Clients} {holder : Client}
    (hclosed : ∀ client ∈ w.closed, client ∈ s.clients.closed ∨ client ∉ s.clients.created)
    (hholder : w.holder = some holder) (hnew : holder ∉ s.clients.created) :
    (∀ client ∈ s.runtime.components.clients, s.clients.Works client → w.Works client) ↔
      ¬s.BridgeWorks := by
  constructor
  · rintro hworks ⟨component, hcomponent, hbridge⟩
    have hclient : component.producer ∈ s.runtime.components.clients := by
      refine List.mem_append_left _ (List.mem_append_right _ ?_)
      rw [Option.mem_toList]
      exact Option.mem_map_of_mem _ hcomponent
    have hfenced := (hworks _ hclient hbridge).2 (h.known.bridge component hcomponent)
    obtain rfl := Option.some.inj (hholder.symm.trans hfenced)
    exact hnew (h.known.created _ hclient)
  · intro hnone client hclient hworks
    refine ⟨fun hmem => ?_, fun hkind => ?_⟩
    · exact (hclosed client hmem).elim hworks.1 fun hnot => hnot (h.known.created client hclient)
    · -- Only the bridge has a transactional producer.
      rw [RuntimeComponents.clients, List.mem_append, List.mem_append] at hclient
      rcases hclient with (hconsumer | hbridge) | hproducer
      · exact absurd (hkind.symm.trans (h.known.consumers client hconsumer)) (by decide)
      · obtain ⟨component, hcomponent, rfl⟩ := Option.mem_map.mp (Option.mem_toList.mp hbridge)
        exact absurd ⟨component, hcomponent, hworks⟩ hnone
      · exact absurd (hkind.symm.trans (h.known.producer client (Option.mem_toList.mp hproducer)))
          (by decide)

/-- A rotation that raises before the lock. -/
theorem failsHarmlessly_of_error {context : AdapterCreateContext} {env : RotationEnv}
    {raised : Raised} {w : Clients}
    (h : s.runtime.prepareReplacement s.clients context env = (.error raised, w)) :
    s.FailsHarmlessly context env ↔
      ReleasedSince ⟨s.runtime, w⟩ s ∧
        ∀ client ∈ s.runtime.components.clients, s.clients.Works client → w.Works client := by
  unfold FailsHarmlessly others RuntimeFields.rotateCredentials
  rw [h]
  dsimp only
  constructor
  · intro hnoop
    have hnothing := hnoop (Option.some_ne_none _)
    exact ⟨hnothing.released, hnothing.works⟩
  · intro hnothing _
    exact ⟨rfl, hnothing.1, hnothing.2⟩

end Lifecycle

/-- All closes of a row return. -/
theorem closeAll_eq_none_iff {closings : List (Client × Option Raised)} {w : Clients} :
    (closeAll closings w).1 = none ↔ ∀ closing ∈ closings, closing.2 = none := by
  induction closings generalizing w with
  | nil => exact iff_of_true rfl fun _ h => absurd h List.not_mem_nil
  | cons closing closings ih =>
    obtain ⟨client, outcome⟩ := closing
    rw [List.forall_mem_cons]
    cases outcome with
    | some raised => exact iff_of_false (Option.some_ne_none _) fun h => Option.some_ne_none _ h.1
    | none => exact ih.trans (and_iff_right rfl).symm

namespace Lifecycle

variable {s : Lifecycle}

/-- **From the lock on**: a rotation that raises there is no no-op. The producer of its
replacement is left open when the runtime is, and has taken the place of another one
afterwards. -/
theorem Accounted.failsHarmlessly_iff_swaps (h : s.Accounted) {context : AdapterCreateContext}
    {env : RotationEnv} {replacement : RuntimeFields} {w : Clients}
    (hprepared : s.runtime.prepareReplacement s.clients context env = (.ok replacement, w))
    {producer : Client} (hproducer : replacement.components.producerEngine = some producer)
    (hcreated : producer ∈ w.created) (hnew : producer ∉ s.clients.created)
    (hkind : producer.kind ≠ .admin) (hopen : producer ∉ w.closed) :
    s.FailsHarmlessly context env ↔ s.Swaps env := by
  have hnot : producer ∉ s.runtime.components.clients := fun hmem =>
    hnew (h.known.created producer hmem)
  unfold FailsHarmlessly others RuntimeFields.rotateCredentials RuntimeFields.meanwhile
  rw [hprepared]
  dsimp only
  cases hmeanwhile : env.meanwhile with
  | some closing =>
    -- The runtime was closed, and nobody closes the replacement.
    refine iff_of_false (fun hnoop => ?_) fun hswaps => ?_
    swap
    · exact absurd (hmeanwhile.symm.trans hswaps.undisturbed) (Option.some_ne_none _)
    dsimp only [Option.elim] at hnoop
    have hclosed : ((s.runtime.close w closing).2.1).closed = true ∧
        (s.runtime.close w closing).2.2.created = w.created ∧
          producer ∉ (s.runtime.close w closing).2.2.closed := by
      cases hruntime : s.runtime.closed with
      | true =>
        rw [close_of_closed (s := ⟨s.runtime, w⟩) hruntime closing]
        exact ⟨hruntime, rfl, hopen⟩
      | false =>
        rw [close_snd (s := ⟨s.runtime, w⟩) hruntime closing]
        refine ⟨rfl, closeAll_created, fun hmem => ?_⟩
        refine (of_mem_closeAll hmem).elim hopen fun hmem => hnot ?_
        rwa [RuntimeComponents.map_closings] at hmem
    generalize (s.runtime.close w closing).2 = others at hnoop hclosed
    obtain ⟨r, w'⟩ := others
    obtain ⟨hclosed, hall, hunclosed⟩ := hclosed
    unfold RuntimeFields.swapReplacement at hnoop
    cases hrequire : r.requireOpen with
    | none =>
      exact absurd (RuntimeFields.requireOpen_eq_none_iff.mp hrequire)
        (RuntimeFields.not_isOpen_of_closed hclosed)
    | some raised =>
      rw [hrequire] at hnoop
      refine hunclosed ((hnoop (Option.some_ne_none _)).released producer ?_ hnew hkind)
      exact hall.symm ▸ hcreated
  | none =>
  dsimp only [Option.elim]
  unfold RuntimeFields.swapReplacement
  cases hrequire : s.runtime.requireOpen with
  | some raised =>
    refine iff_of_false (fun hnoop => ?_) fun hswaps => ?_
    · exact hopen ((hnoop (Option.some_ne_none _)).released producer hcreated hnew hkind)
    · exact absurd (hrequire.symm.trans (RuntimeFields.requireOpen_eq_none_iff.mpr hswaps.isOpen))
        (Option.some_ne_none _)
  | none =>
  have hisOpen := RuntimeFields.requireOpen_eq_none_iff.mp hrequire
  -- After the swap the runtime has another producer.
  have hreplaced : ∀ r : RuntimeFields, r = s.runtime →
      r.components ≠ replacement.components := by
    intro r heq hcomponents
    refine hnot (List.mem_append_right _ ?_)
    rw [Option.mem_toList, ← heq, hcomponents, hproducer]
  dsimp only
  rw [RuntimeComponents.close_eq_closeAll]
  have hretires : s.Swaps env ↔
      (closeAll (s.runtime.components.closings env.retire) w).1 = none ∧ env.rotated = none := by
    rw [closeAll_eq_none_iff]
    exact ⟨fun hswaps => ⟨hswaps.retires, hswaps.rotated⟩,
      fun hboth => ⟨hisOpen, hmeanwhile, hboth.1, hboth.2⟩⟩
  rw [hretires]
  generalize closeAll (s.runtime.components.closings env.retire) w = closed
  obtain ⟨raised, w'⟩ := closed
  cases raised with
  | some raised =>
    refine iff_of_false (fun hnoop => ?_) fun hboth => Option.some_ne_none _ hboth.1
    exact hreplaced _ (hnoop (Option.some_ne_none _)).runtime rfl
  | none =>
    dsimp only
    cases env.rotated with
    | none => exact iff_of_true (fun hne => absurd rfl hne) ⟨rfl, rfl⟩
    | some raised =>
      refine iff_of_false (fun hnoop => ?_) fun hboth => Option.some_ne_none _ hboth.2
      exact hreplaced _ (hnoop (Option.some_ne_none _)).runtime rfl

/-! ### Where a rotation raises -/

/-- Closing a replacement without a bridge closes its producer, whatever that raises. -/
theorem Accounted.harmless_of_equipping (h : s.Accounted) (outcome : Option Raised) :
    let w := (closeAll [((s.clients.create .admin).fresh .producer, outcome)]
      (RuntimeFields.equipping s.clients)).2
    ReleasedSince ⟨s.runtime, w⟩ s ∧
      ∀ client ∈ s.runtime.components.clients, s.clients.Works client → w.Works client := by
  have hproducer := (h.numbered.create .admin).fresh_not_mem .producer
  have hclosed : (closeAll [((s.clients.create .admin).fresh .producer, outcome)]
      (RuntimeFields.equipping s.clients)).2.closed =
        (s.clients.create .admin).fresh .producer :: s.clients.closed := by
    cases outcome <;> rfl
  refine ⟨fun client hcreated hnew hkind => ?_, h.works_of_unfenced (fun client hmem => ?_) ?_⟩
  · change client ∈ (closeAll _ _).2.created at hcreated
    rw [closeAll_created] at hcreated
    change client ∈ (closeAll _ _).2.closed
    rw [hclosed]
    obtain rfl := List.mem_singleton.mp (mem_of_created [_] hcreated hnew hkind)
    exact List.mem_cons_self
  · rw [hclosed, List.mem_cons] at hmem
    refine hmem.symm.imp_right fun heq => ?_
    subst heq
    exact fun hmem => hproducer (List.mem_cons_of_mem _ hmem)
  · rw [closeAll_holder]
    rfl

/-- Closing a replacement with a bridge closes its producer when the bridge lets it. -/
theorem Accounted.released_iff_of_bridging (h : s.Accounted) {w : Clients}
    (hcreated : w.created = (RuntimeFields.equipping s.clients).fresh .transactionalProducer ::
      (RuntimeFields.equipping s.clients).created)
    (hclosed : w.closed = s.clients.closed) (flush outcome : Option Raised) :
    let after := (closeAll
      [((RuntimeFields.equipping s.clients).fresh .transactionalProducer, flush),
        ((s.clients.create .admin).fresh .producer, outcome)] w).2
    (ReleasedSince ⟨s.runtime, after⟩ s ↔ flush = none) ∧
      ∀ client ∈ after.closed, client ∈ s.clients.closed ∨ client ∉ s.clients.created := by
  have hproducer := (h.numbered.create .admin).fresh_not_mem .producer
  have hproducer' : (s.clients.create .admin).fresh .producer ∉ s.clients.created :=
    fun hmem => hproducer (List.mem_cons_of_mem _ hmem)
  have htransactional : (RuntimeFields.equipping s.clients).fresh .transactionalProducer ∉
      s.clients.created := fun hmem =>
    h.numbered.equipping.fresh_not_mem _ (RuntimeFields.created_subset_equipping hmem)
  refine ⟨⟨fun hreleased => ?_, fun hflush client hmem hnew hkind => ?_⟩, fun client hmem => ?_⟩
  · cases flush with
    | none => rfl
    | some raised =>
      -- The producer is not among the closed clients.
      have hmem := hreleased ((s.clients.create .admin).fresh .producer)
        (by
          change _ ∈ w.created
          rw [hcreated]
          exact List.mem_cons_of_mem _ List.mem_cons_self)
        hproducer' (show ClientKind.producer ≠ ClientKind.admin by decide)
      change _ ∈ _ :: w.closed at hmem
      rw [hclosed, List.mem_cons] at hmem
      refine absurd hmem (not_or.mpr ⟨fun heq => ?_, fun hmem => ?_⟩)
      · exact absurd (congrArg Client.kind heq)
          (show ClientKind.producer ≠ ClientKind.transactionalProducer by decide)
      · exact hproducer' (h.numbered.closed_created _ hmem)
  · change client ∈ (closeAll _ _).2.created at hmem
    rw [closeAll_created, hcreated] at hmem
    exact mem_closeAll_of_unhindered (by simp [hflush]) (mem_of_created [_, _] hmem hnew hkind)
  · refine (of_mem_closeAll hmem).imp (fun hmem => hclosed ▸ hmem) fun hmem => ?_
    rcases List.mem_cons.mp hmem with rfl | hmem
    · exact htransactional
    · obtain rfl := List.mem_singleton.mp hmem
      exact hproducer'

/-- The way of a replacement from its constructor to the second probe. -/
theorem prepareReplacement_eq {context : AdapterCreateContext} {env : RotationEnv}
    (hcontext : env.fromContext = none) (hbinding : context.binding = s.runtime.binding) :
    s.runtime.prepareReplacement s.clients context env =
      match RuntimeFields.handled env.opening.close
        ((RuntimeFields.create context).openBody s.clients env.opening) with
      | (some raised, _, w) => (.error raised, w)
      | (none, replacement, w) =>
        match env.probe with
        | none => (.ok replacement, w)
        | some raised =>
          match replacement.close w env.close with
          | (closing, _, w) => (.error (closing.getD raised), w) := by
  unfold RuntimeFields.prepareReplacement
  rw [hcontext]
  dsimp only
  rw [if_neg (not_not_intro hbinding)]
  -- the replacement has neither been opened nor closed before
  have hopen : (RuntimeFields.create context).openRuntime s.clients env.opening =
      RuntimeFields.handled env.opening.close
        ((RuntimeFields.create context).openBody s.clients env.opening) :=
    RuntimeFields.openRuntime_eq rfl rfl _
  exact hopen ▸ rfl

/-- A rotation whose settings are refused, or whose replacement is not probed. -/
theorem Accounted.failsHarmlessly_of_unprobed (h : s.Accounted) {context : AdapterCreateContext}
    {env : RotationEnv}
    (hfails : env.fromContext ≠ none ∨ context.binding ≠ s.runtime.binding ∨ ¬env.opening.Probed) :
    s.FailsHarmlessly context env := by
  have hnothing : ReleasedSince ⟨s.runtime, s.clients⟩ s ∧
      ∀ client ∈ s.runtime.components.clients, s.clients.Works client → s.clients.Works client :=
    ⟨fun client hcreated hnew => absurd hcreated hnew, fun _ _ hworks => hworks⟩
  cases hcontext : env.fromContext with
  | some raised =>
    have hrefused : s.runtime.prepareReplacement s.clients context env =
        (.error raised, s.clients) := by
      unfold RuntimeFields.prepareReplacement
      rw [hcontext]
    exact (failsHarmlessly_of_error hrefused).mpr hnothing
  | none =>
  by_cases hbinding : context.binding = s.runtime.binding
  swap
  · have hrefused : s.runtime.prepareReplacement s.clients context env =
        (.error (.failure
          { kind := .kafkaConfigurationError
            message := "credential rotation cannot replace the Binding" }), s.clients) := by
      unfold RuntimeFields.prepareReplacement
      rw [hcontext]
      exact if_pos hbinding
    exact (failsHarmlessly_of_error hrefused).mpr hnothing
  -- The replacement is opened, and fails before its probe is done.
  have hunprobed : ¬env.opening.Probed := by
    rcases hfails with hfails | hfails | hfails
    · exact absurd hcontext hfails
    · exact absurd hbinding hfails
    · exact hfails
  have hprepared := prepareReplacement_eq hcontext hbinding
  have hbody := RuntimeFields.openBody_cases (r := .create context) (w := s.clients) env.opening
  generalize (RuntimeFields.create context).openBody s.clients env.opening = body at hprepared hbody
  cases hbody with
  | noAdmin hraises => exact (failsHarmlessly_of_error hprepared).mpr hnothing
  | noProducer _ hraises =>
    refine (failsHarmlessly_of_error hprepared).mpr ⟨fun client hmem hnew hkind => ?_,
      h.works_of_unfenced (fun _ hmem => Or.inl hmem) rfl⟩
    exact absurd (mem_of_created [] hmem hnew hkind) List.not_mem_nil
  | unprobed _ _ hraises =>
    refine (failsHarmlessly_of_error hprepared).mpr ?_
    rw [RuntimeFields.closings_equipped rfl]
    exact h.harmless_of_equipping env.opening.close.producer
  -- Every other body has been probed.
  | noTransactionalProducer probed _ _ | uninitialized probed _ _ _ | unreported probed _ _ _ _
  | transactional probed _ _ _ _ | plain probed _ => exact absurd probed hunprobed

section Prepared

variable {context : AdapterCreateContext} {env : RotationEnv}

/-- A replacement that closes its bridge after it has fenced the old one. -/
theorem Accounted.failsHarmlessly_iff_of_fenced (h : s.Accounted) (closing : CloseEnv)
    {raised : Raised}
    (hprepared : s.runtime.prepareReplacement s.clients context env = (.error raised,
      (closeAll ((((RuntimeFields.create context).equipped s.clients).bridged
        (RuntimeFields.equipping s.clients)).components.closings closing)
        (((RuntimeFields.equipping s.clients).create .transactionalProducer).initTransactions
          ((RuntimeFields.equipping s.clients).fresh .transactionalProducer))).2)) :
    s.FailsHarmlessly context env ↔ closing.flushTransactional = none ∧ ¬s.BridgeWorks := by
  have htransactional : (RuntimeFields.equipping s.clients).fresh .transactionalProducer ∉
      s.clients.created := fun hmem =>
    h.numbered.equipping.fresh_not_mem _ (RuntimeFields.created_subset_equipping hmem)
  obtain ⟨hreleased, hclosed⟩ := h.released_iff_of_bridging (w :=
    ((RuntimeFields.equipping s.clients).create .transactionalProducer).initTransactions
      ((RuntimeFields.equipping s.clients).fresh .transactionalProducer)) rfl rfl
      closing.flushTransactional closing.producer
  rw [RuntimeFields.closings_bridged rfl] at hprepared
  rw [failsHarmlessly_of_error hprepared, hreleased,
    h.works_iff_of_fenced hclosed closeAll_holder htransactional]

/-- A replacement that is closed after its second probe. -/
theorem prepared_of_closed {prepared : Except Raised RuntimeFields × Clients}
    {replacement : RuntimeFields} {w : Clients} {raised : Raised} {closing : RuntimeCloseEnv}
    (hprepared : prepared =
      (.error ((replacement.close w closing).1.getD raised), (replacement.close w closing).2.2))
    (hopen : replacement.closed = false) :
    ∃ raised', prepared =
      (.error raised', (closeAll (replacement.components.closings closing.components) w).2) := by
  have hclosed := close_snd (s := ⟨replacement, w⟩) hopen closing
  generalize replacement.close w closing = outcome at hclosed hprepared
  obtain ⟨raised', r, w'⟩ := outcome
  obtain ⟨rfl, rfl⟩ := Prod.mk.inj hclosed
  exact ⟨raised'.getD raised, hprepared⟩

/-- A replacement that is ready, whose producer is the one it has created. -/
theorem Accounted.failsHarmlessly_iff_of_ready (h : s.Accounted) {replacement : RuntimeFields}
    {w : Clients}
    (hprepared : s.runtime.prepareReplacement s.clients context env = (.ok replacement, w))
    (hproducer : replacement.components.producerEngine =
      some ((s.clients.create .admin).fresh .producer))
    (hcreated : (s.clients.create .admin).fresh .producer ∈ w.created)
    (hclosed : w.closed = s.clients.closed) : s.FailsHarmlessly context env ↔ s.Swaps env := by
  have hnew : (s.clients.create .admin).fresh .producer ∉ s.clients.created := fun hmem =>
    (h.numbered.create .admin).fresh_not_mem .producer (List.mem_cons_of_mem _ hmem)
  refine h.failsHarmlessly_iff_swaps hprepared hproducer hcreated hnew
    (show ClientKind.producer ≠ ClientKind.admin by decide) fun hmem => ?_
  rw [hclosed] at hmem
  exact hnew (h.numbered.closed_created _ hmem)

/-- A replacement that was probed, with transactions. -/
theorem Accounted.failsHarmlessly_iff_of_enabled (h : s.Accounted)
    (hcontext : env.fromContext = none) (hbinding : context.binding = s.runtime.binding)
    (hprobed : env.opening.Probed) (henabled : context.binding.transactionEnabled = true) :
    s.FailsHarmlessly context env ↔
      if env.opening.transactionalProducer ≠ none then True
      else if env.opening.initTransactions ≠ none then
        env.opening.close.flushTransactional = none
      else if env.opening.initialized ≠ none ∨ env.opening.opened ≠ none then
        env.opening.close.flushTransactional = none ∧ ¬s.BridgeWorks
      else if env.probe ≠ none then
        env.close.components.flushTransactional = none ∧ ¬s.BridgeWorks
      else s.Swaps env := by
  have hprepared := prepareReplacement_eq hcontext hbinding
  have hbody := RuntimeFields.openBody_cases (r := .create context) (w := s.clients) env.opening
  generalize (RuntimeFields.create context).openBody s.clients env.opening = body at hprepared hbody
  -- The later the opening fails, the more of the replacement is there to be closed.
  cases hbody with
  | noAdmin hraises => exact absurd (hraises.symm.trans hprobed.1) (Option.some_ne_none _)
  | noProducer _ hraises => exact absurd (hraises.symm.trans hprobed.2.1) (Option.some_ne_none _)
  | unprobed _ _ hraises => exact absurd (hraises.symm.trans hprobed.2.2) (Option.some_ne_none _)
  | plain _ disabled => exact absurd (disabled.symm.trans henabled) Bool.false_ne_true
  | noTransactionalProducer _ _ hraises =>
    rw [if_pos (by rw [hraises]; exact Option.some_ne_none _)]
    refine iff_of_true ((failsHarmlessly_of_error hprepared).mpr ?_) trivial
    rw [RuntimeFields.closings_equipped rfl]
    exact h.harmless_of_equipping env.opening.close.producer
  | uninitialized _ _ producer hraises =>
    rw [if_neg (not_not_intro producer), if_pos (by rw [hraises]; exact Option.some_ne_none _)]
    rw [failsHarmlessly_of_error hprepared, RuntimeFields.closings_bridged rfl]
    obtain ⟨hreleased, hclosed⟩ := h.released_iff_of_bridging (w :=
      (RuntimeFields.equipping s.clients).create .transactionalProducer) rfl rfl
        env.opening.close.flushTransactional env.opening.close.producer
    rw [hreleased]
    exact and_iff_left (h.works_of_unfenced hclosed closeAll_holder)
  | unreported _ _ producer init hraises =>
    rw [if_neg (not_not_intro producer), if_neg (not_not_intro init),
      if_pos (Or.inl (by rw [hraises]; exact Option.some_ne_none _))]
    exact h.failsHarmlessly_iff_of_fenced env.opening.close hprepared
  | transactional _ _ producer init initialized =>
    rw [if_neg (not_not_intro producer), if_neg (not_not_intro init), initialized]
    cases hopened : env.opening.opened with
    | some raised =>
      rw [hopened] at hprepared
      rw [if_pos (Or.inr (Option.some_ne_none _))]
      exact h.failsHarmlessly_iff_of_fenced env.opening.close hprepared
    | none =>
    rw [hopened] at hprepared
    rw [if_neg (not_or.mpr ⟨not_not_intro rfl, not_not_intro rfl⟩)]
    dsimp only [RuntimeFields.handled] at hprepared
    cases hprobe : env.probe with
    | none =>
      rw [hprobe] at hprepared
      rw [if_neg (not_not_intro rfl)]
      exact h.failsHarmlessly_iff_of_ready hprepared rfl
        (List.mem_cons_of_mem _ List.mem_cons_self) rfl
    | some raised =>
      rw [hprobe] at hprepared
      rw [if_pos (Option.some_ne_none _)]
      dsimp only at hprepared
      obtain ⟨raised', hclosed⟩ := prepared_of_closed hprepared rfl
      exact h.failsHarmlessly_iff_of_fenced env.close.components hclosed

/-- A replacement that was probed, without transactions. -/
theorem Accounted.failsHarmlessly_iff_of_disabled (h : s.Accounted)
    (hcontext : env.fromContext = none) (hbinding : context.binding = s.runtime.binding)
    (hprobed : env.opening.Probed) (hdisabled : context.binding.transactionEnabled = false) :
    s.FailsHarmlessly context env ↔
      if env.opening.opened ≠ none ∨ env.probe ≠ none then True else s.Swaps env := by
  have hprepared := prepareReplacement_eq hcontext hbinding
  have hbody := RuntimeFields.openBody_cases (r := .create context) (w := s.clients) env.opening
  generalize (RuntimeFields.create context).openBody s.clients env.opening = body at hprepared hbody
  -- Without transactions no client of the replacement fences one of the runtime.
  cases hbody with
  | noAdmin hraises => exact absurd (hraises.symm.trans hprobed.1) (Option.some_ne_none _)
  | noProducer _ hraises => exact absurd (hraises.symm.trans hprobed.2.1) (Option.some_ne_none _)
  | unprobed _ _ hraises => exact absurd (hraises.symm.trans hprobed.2.2) (Option.some_ne_none _)
  | noTransactionalProducer _ enabled _ | uninitialized _ enabled _ _ | unreported _ enabled _ _ _
  | transactional _ enabled _ _ _ => exact absurd (hdisabled.symm.trans enabled) Bool.false_ne_true
  | plain _ _ =>
    have hequipped := RuntimeFields.closings_equipped (r := .create context) (w := s.clients) rfl
    cases hopened : env.opening.opened with
    | some raised =>
      rw [hopened] at hprepared
      rw [if_pos (Or.inl (Option.some_ne_none _))]
      refine iff_of_true ((failsHarmlessly_of_error hprepared).mpr ?_) trivial
      change _ ∧ ∀ client ∈ _, _ → (closeAll (((RuntimeFields.create context).equipped
        s.clients).components.closings env.opening.close) _).2.Works client
      rw [hequipped]
      exact h.harmless_of_equipping env.opening.close.producer
    | none =>
    rw [hopened] at hprepared
    dsimp only [RuntimeFields.handled] at hprepared
    cases hprobe : env.probe with
    | none =>
      rw [hprobe] at hprepared
      rw [if_neg (not_or.mpr ⟨not_not_intro rfl, not_not_intro rfl⟩)]
      exact h.failsHarmlessly_iff_of_ready hprepared rfl List.mem_cons_self rfl
    | some raised =>
      rw [hprobe] at hprepared
      rw [if_pos (Or.inr (Option.some_ne_none _))]
      dsimp only at hprepared
      obtain ⟨raised', hclosed⟩ := prepared_of_closed hprepared rfl
      refine iff_of_true ((failsHarmlessly_of_error hclosed).mpr ?_) trivial
      exact hequipped env.close.components ▸ h.harmless_of_equipping env.close.components.producer

end Prepared

/-- **A rotation that raises is a no-op** exactly when it is a harmless one, for every
runtime that has come from a run of calls. -/
theorem rotation_noOp_iff (created : AdapterCreateContext) (calls : List LifecycleCall)
    (context : AdapterCreateContext) (env : RotationEnv) :
    let s := lifecycle.play (create created) calls
    s.FailsHarmlessly context env ↔ s.HarmlessRotation context env := by
  intro s
  have h : s.Accounted := accounted_play created calls
  unfold HarmlessRotation
  split
  · next hfails => exact iff_of_true (h.failsHarmlessly_of_unprobed hfails) trivial
  next hcomes =>
  simp only [not_or, not_not] at hcomes
  obtain ⟨hcontext, hbinding, hprobed⟩ := hcomes
  split
  · next henabled => exact h.failsHarmlessly_iff_of_enabled hcontext hbinding hprobed henabled
  · next hdisabled =>
    exact h.failsHarmlessly_iff_of_disabled hcontext hbinding hprobed (by simpa using hdisabled)

end Lifecycle

namespace Sample

/-- The Binding with other credentials. -/
def rotated : AdapterCreateContext := { context with credential := "second" }

/-- A runtime that is open, with its transactional producer. -/
def running : Lifecycle := lifecycle.play (.create context) [.openRuntime {}]

end Sample

namespace Lifecycle

/-- **A failed rotation fences the bridge.** The second probe of the replacement raises;
the fields of the runtime stay, and its transactional producer, which worked before, is
fenced by that of the replacement. -/
theorem failed_rotation_fences_bridge :
    Sample.running.BridgeWorks ∧
      ¬Sample.running.FailsHarmlessly Sample.rotated { probe := some .other } := by
  constructor
  · exact ⟨_, rfl, by decide⟩
  · intro h
    have hworks := (h (by decide)).works ⟨2, .transactionalProducer⟩ (by decide) (by decide)
    exact absurd hworks (by decide)

end Lifecycle

end MeridianKafka
