import MeridianKafka.Transactions.Mixed

/-!
# Acknowledgements that keep apart

Every action of the sessions keeps the account of a partition and the books of the group
member in balance when the acknowledgements in transactions and those without keep apart
(`Balanced.step`), and so the account is honest in every state of such a run
(`honest_of_apart`).

A commit without a transaction that does not stop before the records of the open
transaction takes the position past them, and the commit of that transaction takes it back
(`commit_passes_transaction`).
-/

namespace MeridianKafka

open Framework

namespace AccountBook

variable {Token : Type} {engine : KafkaConsumerEngine Token} {logs : GroupRef → PartitionLog}
  {g : GroupRef} {stream : PhysicalStream} {p : ℕ} {book : AccountBook}

/-- Only the session that acts can lose its transaction or a group that it has touched. -/
theorem stays_of_self {action : SessionAction Token} {i : ℕ} (own : action.session = some i)
    (self : (book.sessions.sessions i).active = true →
      ((engine.act book.sessions action).sessions i).active = true ∧
        (g ∈ (book.sessions.sessions i).touchedGroups →
          g ∈ ((engine.act book.sessions action).sessions i).touchedGroups)) (j : ℕ)
    (hactive : (book.sessions.sessions j).active = true) :
    ((engine.act book.sessions action).sessions j).active = true ∧
      (g ∈ (book.sessions.sessions j).touchedGroups →
        g ∈ ((engine.act book.sessions action).sessions j).touchedGroups) := by
  by_cases heq : j = i
  · subst heq
    exact self hactive
  · have hsame : (engine.act book.sessions action).sessions j = book.sessions.sessions j :=
      KafkaConsumerEngine.act_sessions_of_ne fun htaken =>
        heq (Option.some.inj (htaken.symm.trans own))
    rw [hsame]
    exact ⟨hactive, id⟩

/-! ### The calls that end no transaction -/

/-- **A member joins.** -/
theorem Balanced.join (h : book.Balanced engine logs g stream p) {poll : PollCommand}
    {partitions : List ℕ} (compiled : poll.group = g → poll.stream = stream) :
    (book.next engine g stream p (.call (.join poll partitions))).Balanced engine logs g stream
      p := by
  -- Joining again changes nothing.
  by_cases hjoined : (book.sessions.runtime.states.get? poll.group).isSome
  · have hact : engine.act book.sessions (.call (.join poll partitions)) = book.sessions :=
      if_pos hjoined
    refine h.frame rfl (fun call heq => by cases heq; rfl) (by rw [hact])
      (staged_of_bridge (by rw [hact])) fun i hactive => ?_
    rw [hact]
    exact ⟨hactive, id⟩
  have hact : engine.act book.sessions (.call (.join poll partitions)) =
      book.sessions.setMember poll.group (.joined poll partitions) := if_neg hjoined
  have hstaged : (book.next engine g stream p (.call (.join poll partitions))).staged g stream p =
      book.staged g stream p := staged_of_bridge (by rw [hact]; rfl)
  by_cases hgroup : poll.group = g
  swap
  · refine h.frame rfl (fun call heq => by cases heq; rfl) ?_ hstaged fun i hactive => ?_
    · rw [hact]
      exact Dict.get?_set_of_ne _ _ (Ne.symm hgroup)
    · rw [hact]
      exact ⟨hactive, id⟩
  -- The group had no member, so its account has nothing pending and nothing is staged for it.
  have hnone : book.sessions.runtime.states.get? g = none := by
    rw [← hgroup]
    simpa using hjoined
  have after : (engine.act book.sessions (.call (.join poll partitions))).runtime.states.get? g =
      some (.joined poll partitions) := by
    rw [hact, ← hgroup]
    exact Dict.get?_set_self ..
  obtain ⟨hpending, hnothing⟩ := h.absent hnone
  have haccount : (book.next engine g stream p (.call (.join poll partitions))).account =
      book.account := by
    have hsettled : engine.settledBy g p (book.sessions, .join poll partitions) = none := by
      unfold KafkaConsumerEngine.settledBy
      rw [hnone]
    have hcommitted : engine.committedBy g stream.topic p (book.sessions, .join poll partitions) =
        none := by
      unfold KafkaConsumerEngine.committedBy
      rw [hnone]
      rfl
    unfold next
    dsimp only
    rw [hsettled, hcommitted]
    rfl
  refine h.of_member after (compiled hgroup) ?_ ?_ ?_ ?_ ?_
  · rw [Member.ledger_joined]
    exact .empty
  · rw [haccount]
    exact h.sound
  · rw [haccount, hstaged, hnothing, Member.ledger_joined]
    exact .joined hpending
  · intro _
    rw [haccount, hstaged]
    exact ⟨hpending, hnothing⟩
  · rw [haccount]
    exact fun hne => absurd hpending hne

/-- **A transaction is begun**, or it is not. -/
theorem Balanced.begin (h : book.Balanced engine logs g stream p) (i : ℕ) (env : SessionBeginEnv) :
    (book.next engine g stream p (.call (.begin i env))).Balanced engine logs g stream p := by
  have hstates : (engine.act book.sessions (.call (.begin i env))).runtime.states =
      book.sessions.runtime.states := (book.sessions.sessions i).begin_states _ env
  refine h.frame rfl (fun call heq => by cases heq; rfl) (by rw [hstates]) ?_ fun j hactive => ?_
  · by_cases hbegun : ∃ j, (book.sessions.sessions j).active = true
    · -- Somebody has the lease, and keeps it.
      obtain ⟨j, hactive⟩ := hbegun
      refine staged_of_bridge ?_
      by_cases hown : i = j
      · subst hown
        exact congrArg KafkaAdapterRuntime.transactionBridge
          (KafkaAdapterSession.begin_of_active book.sessions.runtime hactive env).2
      · exact KafkaConsumerEngine.act_bridge_of_other h.leased hactive
          fun heq => hown (Option.some.inj heq)
    · rw [not_exists] at hbegun
      have hidle := (h.idle fun j => by simpa using hbegun j).2
      rcases (book.sessions.sessions i).begin_effect book.sessions.runtime env with heq | hblank
      · exact staged_of_bridge heq
      · rw [hidle]
        exact staged_of_blank hblank
  · refine stays_of_self rfl (fun hbegun => ?_) j hactive
    have hsession : (engine.act book.sessions (.call (.begin i env))).sessions i =
        book.sessions.sessions i :=
      (RuntimeSessions.put_self ..).trans
        (KafkaAdapterSession.begin_of_active book.sessions.runtime hbegun env).1
    rw [hsession]
    exact ⟨hbegun, id⟩

/-- An acknowledgement leaves every session its transaction and the groups it has
touched. -/
theorem acknowledge_stays (i : ℕ) (command : AcknowledgeCommand Token) (env : AcknowledgeEnv) (j : ℕ)
    (hactive : (book.sessions.sessions j).active = true) :
    ((engine.act book.sessions (.call (.acknowledge i command env))).sessions j).active = true ∧
      (g ∈ (book.sessions.sessions j).touchedGroups →
        g ∈ ((engine.act book.sessions (.call (.acknowledge i command env))).sessions
          j).touchedGroups) := by
  refine stays_of_self rfl (fun hbegun => ?_) j hactive
  have hsession : (engine.act book.sessions (.call (.acknowledge i command env))).sessions i =
      ((book.sessions.sessions i).acknowledge book.sessions.runtime engine command env).session :=
    RuntimeSessions.put_self ..
  rw [hsession]
  unfold KafkaAdapterSession.acknowledge
  split
  · exact ⟨hbegun, id⟩
  · dsimp only
    rw [hbegun, if_pos rfl]
    exact ⟨rfl, List.mem_insert_of_mem⟩

/-- **An acknowledgement** of any group, in a transaction or without one. -/
theorem Balanced.acknowledge (h : book.Balanced engine logs g stream p) {i : ℕ}
    {command : AcknowledgeCommand Token} {env : AcknowledgeEnv} {groupOf : String → GroupRef}
    (own : groupOf g.2.str = g)
    (compiled : (SessionAction.call (.acknowledge i command env)).CompiledFor groupOf g stream)
    (apart : book.KeepsApart engine g stream p (.call (.acknowledge i command env))) :
    (book.next engine g stream p (.call (.acknowledge i command env))).Balanced engine logs g stream
      p := by
  obtain ⟨hgroupOf, htopic⟩ := compiled
  -- An acknowledgement that leaves the member and what is staged for it.
  have hframe : (engine.act book.sessions (.call (.acknowledge i command env))).runtime.states.get? g =
        book.sessions.runtime.states.get? g →
      (book.next engine g stream p (.call (.acknowledge i command env))).staged g stream p =
        book.staged g stream p →
      (book.next engine g stream p (.call (.acknowledge i command env))).Balanced engine logs g
        stream p := fun hsame hstaged =>
    h.frame rfl (fun call heq => by cases heq; rfl) hsame hstaged (acknowledge_stays i command env)
  have hleaves : (engine.act book.sessions (.call (.acknowledge i command env))).runtime =
        book.sessions.runtime →
      (book.next engine g stream p (.call (.acknowledge i command env))).Balanced engine logs g
        stream p := fun hruntime =>
    hframe (by rw [hruntime]) (staged_of_bridge (by rw [hruntime]))
  have hact : (engine.act book.sessions (.call (.acknowledge i command env))).runtime =
      ((book.sessions.sessions i).acknowledge book.sessions.runtime engine command env).runtime := rfl
  cases begun : (book.sessions.sessions i).ensureBegun with
  | some raised =>
    refine hleaves (hact.trans ?_)
    rw [KafkaAdapterSession.acknowledge_of_refused engine _ _ begun]
    rfl
  | none =>
  have hruntime : (engine.act book.sessions (.call (.acknowledge i command env))).runtime =
      (book.sessions.runtime.acknowledge engine command (book.sessions.sessions i).active env).2 := by
    rw [hact, KafkaAdapterSession.acknowledge_of_begun engine _ _ begun]
  cases before : book.sessions.runtime.states.get? command.group with
  | none =>
    exact hleaves (hruntime.trans (KafkaAdapterRuntime.acknowledge_of_absent engine _ before _ env))
  | some m =>
  by_cases hgroup : command.group = g
  · cases active : (book.sessions.sessions i).active with
    | true => exact h.transactional begun active hgroup (htopic hgroup) (hgroup ▸ before)
    | false =>
      have houtcome : (engine.act book.sessions (.call (.acknowledge i command env))).runtime =
          { states := book.sessions.runtime.states.set command.group
              (engine.acknowledge m command none env).2.1
            transactionBridge := (engine.acknowledge m command none env).2.2.getD
              book.sessions.runtime.transactionBridge } := by
        rw [hruntime, active]
        exact KafkaAdapterRuntime.acknowledge_of_member engine _ before false env
      have hafter : (engine.act book.sessions (.call (.acknowledge i command env))).runtime.states.get?
          g = some (engine.acknowledge m command none env).2.1 := by
        rw [houtcome, ← hgroup]
        exact Dict.get?_set_self ..
      refine h.plain rfl rfl (hgroup ▸ before) hafter active ?_ (fun j => ?_) ?_
      · show (engine.act book.sessions
          (.call (.acknowledge i command env))).runtime.transactionBridge = _
        rw [hruntime, active]
        exact book.sessions.runtime.acknowledge_bridge_of_plain engine command env
      · show (engine.act book.sessions (.call (.acknowledge i command env))).sessions j = _
        by_cases hown : j = i
        · subst hown
          show (book.sessions.put j _).sessions j = _
          rw [RuntimeSessions.put_self, KafkaAdapterSession.acknowledge_of_begun engine _ _ begun]
          dsimp only
          rw [active, if_neg Bool.false_ne_true]
        · exact KafkaConsumerEngine.act_sessions_of_ne fun heq => hown (Option.some.inj heq).symm
      · intro hcommit c hvalid here hat
        have hack : KafkaConsumerEngine.plainAck engine book.sessions
            (.call (.acknowledge i command env)) = some (command.group, command, env) := by
          unfold KafkaConsumerEngine.plainAck
          dsimp only
          rw [begun, active]
          rfl
        refine apart.commits _ hack hgroup (by simp [hcommit]) m (hgroup ▸ before) c ?_ ?_ here hat
        · rw [hvalid.decodes]
          rfl
        · rw [hvalid.accepted]
          rfl
  · -- The member of another group, whose offsets have another key.
    refine hframe ?_ ?_
    · rw [hruntime, KafkaAdapterRuntime.acknowledge_of_member engine _ before]
      exact Dict.get?_set_of_ne _ _ (Ne.symm hgroup)
    · cases active : (book.sessions.sessions i).active with
      | false =>
        refine staged_of_bridge ?_
        rw [hruntime, active]
        exact book.sessions.runtime.acknowledge_bridge_of_plain engine command env
      | true =>
        have hkey : g.2.str ≠ command.consumerGroup.ref.str := by
          intro heq
          rw [← heq, own] at hgroupOf
          exact hgroup hgroupOf.symm
        show KafkaTransactionBridge.staged (engine.act book.sessions
          (.call (.acknowledge i command env))).runtime.transactionBridge _ _ _ = _
        rw [(act_acknowledge engine env begun active before).1]
        by_cases hvalid : ∃ c, engine.ValidToken m command env.nowMs c
        · obtain ⟨c, hvalid⟩ := hvalid
          exact staged_of_other hvalid h.keyed _ _ fun heq => hkey heq.1
        · obtain ⟨raised, hrefused⟩ := engine.acknowledge_of_invalid command
            (some book.sessions.runtime.transactionBridge) env (not_exists.mp hvalid)
          rw [hrefused]
          rfl

/-! ### The calls that end a transaction -/

section Ends

variable {action : SessionAction Token} {i : ℕ}

/-- The session that ends its transaction was the only one with a transaction. -/
theorem inactive_of_ends (leased : book.sessions.Leased)
    (active : (book.sessions.sessions i).active = true) (own : action.session = some i)
    (ended : ((engine.act book.sessions action).sessions i).active = false) (j : ℕ) :
    ((engine.act book.sessions action).sessions j).active = false := by
  by_cases heq : j = i
  · rw [heq, ended]
  · rw [KafkaConsumerEngine.act_sessions_of_ne fun htaken =>
      heq (Option.some.inj (htaken.symm.trans own))]
    by_contra hactive
    exact heq (leased.unique j i (by simpa using hactive) active)

/-- The group is taken out of the engine when it has records that only the transaction has
acknowledged. -/
theorem Balanced.discards (h : book.Balanced engine logs g stream p)
    (active : (book.sessions.sessions i).active = true)
    (ends : engine.endsUncommitted book.sessions action = some i)
    (apart : book.KeepsApart engine g stream p action) {bridge : KafkaTransactionBridge}
    (recovers : (engine.act book.sessions action).runtime =
      (KafkaAdapterRuntime.recoverTouchedGroups action.recoverEnv
        (book.sessions.sessions i).touchedGroups
        { book.sessions.runtime with transactionBridge := bridge }).2)
    (unsettled : ∃ k ∈ book.account.pending, k ∉ book.account.settled) :
    (engine.act book.sessions action).runtime.states.get? g = none := by
  have hpending : book.account.pending ≠ [] := by
    obtain ⟨k, hk, -⟩ := unsettled
    exact List.ne_nil_of_mem hk
  rw [recovers]
  exact KafkaAdapterRuntime.get?_of_reached _ action.recoverEnv _ (h.touched hpending i active)
    (apart.recovers i ends unsettled)

/-- **A commit**, whether it commits or not. -/
theorem Balanced.commit (h : book.Balanced engine logs g stream p) {env : SessionCommitEnv}
    (apart : book.KeepsApart engine g stream p (.call (.commit i env))) :
    (book.next engine g stream p (.call (.commit i env))).Balanced engine logs g stream p := by
  have hsession : (engine.act book.sessions (.call (.commit i env))).sessions i =
      ((book.sessions.sessions i).commit book.sessions.runtime env).session :=
    RuntimeSessions.put_self ..
  have hruntime : (engine.act book.sessions (.call (.commit i env))).runtime =
      ((book.sessions.sessions i).commit book.sessions.runtime env).runtime := rfl
  -- A commit that raises before it comes to the bridge changes nothing.
  by_cases hbegun : (book.sessions.sessions i).closed = false ∧
      (book.sessions.sessions i).active = true
  swap
  · obtain ⟨hsame, hkept, htransaction⟩ := (book.sessions.sessions i).commit_of_inactive
      book.sessions.runtime env fun hopen =>
        hbegun ⟨(book.sessions.sessions i).ensureOpen_eq_none.mp hopen.1, hopen.2⟩
    rw [hkept] at hruntime
    refine h.frame (if_neg fun hends => hbegun ⟨hends.1, hends.2.1⟩)
      (fun call heq => by cases heq; exact htransaction) (by rw [hruntime])
      (staged_of_bridge (by rw [hruntime])) (stays_of_self rfl fun hactive => ?_)
    rw [hsession, hsame]
    exact ⟨hactive, id⟩
  obtain ⟨hopen, hactive⟩ := hbegun
  have hended : ((engine.act book.sessions (.call (.commit i env))).sessions i).active = false := by
    rw [hsession, (book.sessions.sessions i).commit_session book.sessions.runtime env
      ((book.sessions.sessions i).ensureOpen_eq_none.mpr hopen) hactive]
  have hinactive := inactive_of_ends h.leased hactive rfl hended
  have hblank :
      (engine.act book.sessions (.call (.commit i env))).runtime.transactionBridge.Blank := by
    rw [hruntime, (book.sessions.sessions i).commit_transactionBridge book.sessions.runtime env
      hopen hactive, LeasedBridge.commit_bridge, if_pos (h.opened i hactive)]
    exact ⟨rfl, rfl⟩
  have hsubset := (book.sessions.sessions i).get?_commit book.sessions.runtime env g
  -- It ends the transaction with its offsets committed, or else abandons them.
  cases hcommitted : ((book.sessions.sessions i).commit book.sessions.runtime env).transaction with
  | some tx =>
    refine h.commits (if_neg ?_) hcommitted
      (((book.sessions.sessions i).commit_effect book.sessions.runtime env).2 tx hcommitted) hsubset
      hblank hinactive
    rintro ⟨-, -, hnone⟩
    rw [hcommitted] at hnone
    simp at hnone
  | none =>
    have hends : engine.endsUncommitted book.sessions (.call (.commit i env)) = some i :=
      if_pos ⟨hopen, hactive, by rw [hcommitted]; rfl⟩
    obtain ⟨bridge, hrecovers⟩ := (book.sessions.sessions i).commit_of_uncommitted
      book.sessions.runtime env hopen hactive hcommitted
    exact h.abandons hends (fun call heq => by cases heq; exact hcommitted) hsubset hblank hinactive
      (h.discards hactive hends apart (hruntime.trans hrecovers))

/-- What a rollback leaves of an open transaction, also one that `close` makes. -/
theorem Balanced.rolledBack (h : book.Balanced engine logs g stream p) {env : SessionRollbackEnv}
    (apart : book.KeepsApart engine g stream p action) (own : action.session = some i)
    (recover : action.recoverEnv = env.recover)
    (commits : ∀ call, action = .call call →
      engine.committedTransaction (book.sessions, call) = none)
    (ends : engine.endsUncommitted book.sessions action = some i)
    (hopen : (book.sessions.sessions i).closed = false)
    (hactive : (book.sessions.sessions i).active = true)
    (runtime : (engine.act book.sessions action).runtime =
      ((book.sessions.sessions i).rollback book.sessions.runtime env).runtime)
    (ended : ((engine.act book.sessions action).sessions i).active = false) :
    (book.next engine g stream p action).Balanced engine logs g stream p := by
  have hrecovers := runtime.trans ((book.sessions.sessions i).rollback_of_active
    book.sessions.runtime env ((book.sessions.sessions i).ensureOpen_eq_none.mpr hopen) hactive).1
  -- the transaction is aborted before its groups are recovered
  refine h.abandons ends commits (fun m hm => ?_) ?_ (inactive_of_ends h.leased hactive own ended) ?_
  · rw [runtime] at hm
    exact (book.sessions.sessions i).get?_rollback book.sessions.runtime env g m hm
  · rw [hrecovers, KafkaAdapterRuntime.recoverTouchedGroups_bridge]
    dsimp only
    rw [LeasedBridge.abort_bridge, if_pos (h.opened i hactive)]
    exact ⟨rfl, rfl⟩
  · rw [← recover] at hrecovers
    exact h.discards hactive ends apart hrecovers

/-- **A rollback.** -/
theorem Balanced.rollback (h : book.Balanced engine logs g stream p) {env : SessionRollbackEnv}
    (apart : book.KeepsApart engine g stream p (.call (.rollback i env))) :
    (book.next engine g stream p (.call (.rollback i env))).Balanced engine logs g stream p := by
  have hsession : (engine.act book.sessions (.call (.rollback i env))).sessions i =
      ((book.sessions.sessions i).rollback book.sessions.runtime env).session :=
    RuntimeSessions.put_self ..
  -- without a transaction of its own the session leaves the runtime as it is
  by_cases hbegun : (book.sessions.sessions i).closed = false ∧
      (book.sessions.sessions i).active = true
  · refine h.rolledBack apart rfl rfl (fun call heq => by cases heq; rfl) (if_pos hbegun) hbegun.1
      hbegun.2 rfl ?_
    rw [hsession]
    exact (book.sessions.sessions i).rollback_inactive book.sessions.runtime env
      ((book.sessions.sessions i).ensureOpen_eq_none.mpr hbegun.1) hbegun.2
  · obtain ⟨hsame, hkept⟩ := (book.sessions.sessions i).rollback_of_inactive
      book.sessions.runtime env fun hopen =>
        hbegun ⟨(book.sessions.sessions i).ensureOpen_eq_none.mp hopen.1, hopen.2⟩
    have hruntime : (engine.act book.sessions (.call (.rollback i env))).runtime =
        book.sessions.runtime := hkept
    refine h.frame (if_neg hbegun) (fun call heq => by cases heq; rfl) (by rw [hruntime])
      (staged_of_bridge (by rw [hruntime])) (stays_of_self rfl fun hactive => ?_)
    rw [hsession, hsame]
    exact ⟨hactive, id⟩

/-- **A close**, which rolls an open transaction back. -/
theorem Balanced.close (h : book.Balanced engine logs g stream p) {env : SessionRollbackEnv}
    (apart : book.KeepsApart engine g stream p (.close i env)) :
    (book.next engine g stream p (.close i env)).Balanced engine logs g stream p := by
  have hsession : (engine.act book.sessions (.close i env)).sessions i =
      ((book.sessions.sessions i).close book.sessions.runtime env).session :=
    RuntimeSessions.put_self ..
  -- an open transaction is rolled back first; otherwise nothing but the session changes
  by_cases hbegun : (book.sessions.sessions i).closed = false ∧
      (book.sessions.sessions i).active = true
  · obtain ⟨hruntime, hactive, -⟩ := (book.sessions.sessions i).close_of_active
      book.sessions.runtime env hbegun.1 hbegun.2
    refine h.rolledBack apart rfl rfl (fun call heq => by cases heq) (if_pos hbegun) hbegun.1
      hbegun.2 hruntime ?_
    rw [hsession, hactive]
    exact (book.sessions.sessions i).rollback_inactive book.sessions.runtime env
      ((book.sessions.sessions i).ensureOpen_eq_none.mpr hbegun.1) hbegun.2
  · obtain ⟨hkept, hsame, htouched⟩ := (book.sessions.sessions i).close_of_inactive
      book.sessions.runtime env hbegun
    have hruntime : (engine.act book.sessions (.close i env)).runtime = book.sessions.runtime := hkept
    refine h.frame (if_neg hbegun) (fun call heq => by cases heq) (by rw [hruntime])
      (staged_of_bridge (by rw [hruntime])) (stays_of_self rfl fun hactive => ?_)
    rw [hsession, hsame, htouched]
    exact ⟨hactive, id⟩

end Ends

/-! ### Runs -/

/-- **One action** of the sessions, while the acknowledgements keep apart. -/
theorem Balanced.step (h : book.Balanced engine logs g stream p) {groupOf : String → GroupRef}
    (own : groupOf g.2.str = g) {action : SessionAction Token}
    (allowed : (mixing engine logs g stream p).allowed book action)
    (compiled : action.CompiledFor groupOf g stream)
    (apart : book.KeepsApart engine g stream p action) :
    (book.next engine g stream p action).Balanced engine logs g stream p := by
  obtain ⟨hmay, hmixes, hstarts⟩ := allowed
  cases action with
  | call call =>
    cases call with
    | join poll partitions => exact h.join compiled
    | operate group a => exact h.operate hmay hmixes hstarts apart
    | begin i env => exact h.begin i env
    | acknowledge i command env => exact h.acknowledge own compiled apart
    | executeTransactional i command env => exact hmixes.elim
    | commit i env => exact h.commit apart
    | rollback i env => exact h.rollback apart
  | publish i command env =>
    -- A publication changes neither the members nor the staged offsets; only the session's own
    -- cache moves.
    obtain ⟨hsame, hruntime⟩ := (book.sessions.sessions i).publish_keeps book.sessions.runtime
      command env
    have hact : (engine.act book.sessions (.publish i command env)).runtime = book.sessions.runtime :=
      hruntime
    have hsession : (engine.act book.sessions (.publish i command env)).sessions i =
        book.sessions.sessions i := (RuntimeSessions.put_self ..).trans hsame
    refine h.frame rfl (fun call heq => by cases heq) (by rw [hact])
      (staged_of_bridge (by rw [hact])) (stays_of_self rfl fun hactive => ?_)
    rw [hsession]
    exact ⟨hactive, id⟩
  | close i env => exact h.close apart
  | reorder i groups =>
    have hsession : (engine.act book.sessions (.reorder i groups)).sessions i =
        { book.sessions.sessions i with touchedGroups := groups } := Function.update_self ..
    refine h.frame rfl (fun call heq => by cases heq) rfl (staged_of_bridge rfl)
      (stays_of_self rfl fun hactive => ?_)
    rw [hsession]
    exact ⟨hactive, (List.Perm.mem_iff hmay).mpr⟩

/-- The book of sessions that nobody has used yet, for a group that the broker has at this
position, if it has it anywhere. -/
def opening (start : RuntimeSessions) (position : Option ℕ) : AccountBook where
  sessions := start
  account := { positions := position.toList }

theorem Balanced.start {start : RuntimeSessions} (fresh : start.Fresh) (position : Option ℕ) :
    (opening start position).Balanced engine logs g stream p := by
  have hinactive : ∀ i, ¬(start.sessions i).active = true := fun i => by simp [fresh.inactive]
  have hstaged : (opening start position).staged g stream p = none := by
    show KafkaTransactionBridge.staged start.runtime.transactionBridge _ _ _ = _
    unfold KafkaTransactionBridge.staged
    rw [fresh.offsets, Dict.get?_empty, ite_self]
  have hsettled : ∀ k, ¬(opening start position).account.Unsettled k := by
    intro k hk
    exact hk.acknowledged.elim List.not_mem_nil List.not_mem_nil
  -- No member, no transaction and no offset is there yet.
  constructor
  case leased => exact fresh.leased
  case keyed => exact fun _ => fresh.offsets
  case opened => exact fun i hactive => absurd hactive (hinactive i)
  case sound =>
    refine ⟨fun n _ k hk => absurd hk (hsettled k), ?_, fun k hk => absurd hk (hsettled k)⟩
    cases position with
    | none => exact List.Pairwise.nil
    | some position => exact List.pairwise_singleton _ _
  case member =>
    intro m hm
    change start.runtime.states.get? g = some m at hm
    rw [fresh.states, Dict.get?_empty] at hm
    simp at hm
  case absent => exact fun _ => ⟨rfl, hstaged⟩
  case idle => exact fun _ => ⟨rfl, hstaged⟩
  case touched => exact fun hpending => absurd rfl hpending

/-- **The account is honest** in every state of a run whose acknowledgements keep apart. -/
theorem honest_of_apart (groupOf : String → GroupRef) (own : groupOf g.2.str = g)
    {start : RuntimeSessions} (fresh : start.Fresh) {position : Option ℕ}
    {run : List (SessionAction Token)}
    (legal : (mixing engine logs g stream p).Legal (opening start position) run)
    (compiled : ∀ action ∈ run, action.CompiledFor groupOf g stream)
    (apart : ∀ x ∈ (mixing engine logs g stream p).steps (opening start position) run,
      x.1.KeepsApart engine g stream p x.2) :
    ∀ before, before <+: run →
      ((mixing engine logs g stream p).play (opening start position) before).account.Honest := by
  rintro before ⟨after, rfl⟩
  rw [Machine.legal_append] at legal
  rw [Machine.steps_append] at apart
  -- the books are balanced after every prefix, by what each action preserves
  have hbalanced : ((mixing engine logs g stream p).play (opening start position) before).Balanced
      engine logs g stream p := by
    refine Machine.play_induction (I := fun book => book.Balanced engine logs g stream p)
      (C := fun book action => action.CompiledFor groupOf g stream ∧
        book.KeepsApart engine g stream p action) ?_ (Balanced.start fresh position) legal.1 ?_
    · exact fun book action h allowed hC => h.step own allowed hC.1 hC.2
    · intro x hx
      exact ⟨compiled _ (List.mem_append_left _ (Machine.mem_of_mem_steps hx)),
        apart x (List.mem_append_left _ hx)⟩
  exact hbalanced.sound.honest

end AccountBook

namespace Sample

/-- The calls of other results, as actions. -/
def actions (calls : List (SessionCall TokenPayload)) : List (SessionAction TokenPayload) :=
  calls.map .call

/-- Session `i` acknowledges the first delivery of a record. -/
def acknowledgeBy (i offset : ℕ) : SessionAction TokenPayload :=
  .call (.acknowledge i (acknowledgeCommand offset 1 1) { nowMs := 1 })

/-- The sessions of the sample group over two records, with the account of partition 0. -/
abbrev mixing : Machine AccountBook (SessionAction TokenPayload) :=
  AccountBook.mixing engine (fun _ => log [0, 1] []) command.group orders 0

end Sample

namespace AccountBook

/-- Session 1 rolls its transaction back, and the records are delivered once more. -/
theorem honest_of_apart_rollback :
    let run := Sample.actions Sample.delivered ++ [.call (.begin 1 {}), Sample.acknowledgeBy 1 1,
      .call (.rollback 1 {}), .call (.join Sample.command [0]),
      .call (.operate Sample.command.group (Sample.receive 0)),
      .call (.operate Sample.command.group (Sample.receive 1)), Sample.acknowledgeBy 0 0,
      Sample.acknowledgeBy 0 1]
    ∀ before, before <+: run →
      (Sample.mixing.play (opening Sample.sessions none) before).account.Honest := by
  refine honest_of_apart (fun _ => Sample.command.group) rfl Sample.sessions_fresh
    (by decide +kernel) ?_ (by decide +kernel)
  intro action haction
  simp only [Sample.actions, Sample.delivered, List.map_cons, List.map_nil, List.cons_append,
    List.nil_append, List.mem_cons, List.not_mem_nil, or_false] at haction
  rcases haction with rfl | rfl | rfl | rfl | rfl | rfl | rfl | rfl | rfl | rfl | rfl
  all_goals first | exact trivial | exact fun _ => rfl | exact ⟨rfl, fun _ => rfl⟩

/-- **A commit passes the transaction.** Session 1 acknowledges record 0 in its transaction,
and session 0 record 1 without one: the group is committed at 2 while record 0 is only
acknowledged in the open transaction. When that is committed, the group goes back to 1. -/
theorem commit_passes_transaction :
    let run := Sample.actions Sample.delivered ++ [.call (.begin 1 {}), Sample.acknowledgeBy 1 0,
      Sample.acknowledgeBy 0 1]
    Sample.mixing.Legal (opening Sample.sessions none) (run ++ [.call (.commit 1 {})]) ∧
      ¬(Sample.mixing.play (opening Sample.sessions none) run).account.Honest ∧
      ¬(Sample.mixing.play (opening Sample.sessions none)
        (run ++ [.call (.commit 1 {})])).account.Honest := by
  refine ⟨by decide +kernel, fun h => ?_, fun h => ?_⟩
  · have hcovered := h.covered 2 (by decide +kernel) 0 ⟨Or.inl (by decide +kernel), by decide +kernel⟩
    exact absurd hcovered (by decide)
  · have hforward := h.forward
    revert hforward
    decide +kernel

end AccountBook

end MeridianKafka
