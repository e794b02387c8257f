import AgentComms.Coordination.Transactions

/-!
# Runs of the coordinator

`Op` is every operation of the coordinator with what its caller supplies, and
`reached` the store after any sequence of them: each commits or leaves the store
unchanged. Concurrent callers are serialised by SQLite, so a sequence is any
interleaving. The invariants of all reachable stores follow from what one
transaction does.
-/

namespace AgentComms.Coordination

open Library Relation

inductive Op where
  | register (lookup : ThreadLookup) (committed : Bool)
  | commit (lookup : ThreadLookup)
  | advanceGeneration (lookup : ThreadLookup) (expectedGeneration : Nat)
  | accept (assignment : WakeAssignment)
  | transitionPreengagement (clock : Clock) (assignmentId : AssignmentId)
      (disposition : AssignmentKind) (expectedRevision : Nat)
  | create (clock : Clock) (executionId : ExecutionId) (origin : Origin)
      (ownerLookup : ThreadLookup) (maxAttempts : Nat) (sources : List SelectedSource)
  | markPending (clock : Clock) (executionId : ExecutionId) (expectedRevision : Nat)
  | failUnstarted (clock : Clock) (executionId : ExecutionId) (expectedRevision : Nat)
      (reasonCode : String)
  | start (clock : Clock) (request : AttemptStart)
  | advance (clock : Clock) (fence : OwnerFence) (phase : AttemptKind)
      (expectedPointerRevision : Nat) (backendDone processDead progress : Bool)
      (reasonCode : ReasonCode)
  | failUnknown (clock : Clock) (fence : OwnerFence) (expectedPointerRevision : Nat)
      (release : Checked Unit)
  | settleNonpublication (clock : Clock) (fence : OwnerFence) (expectedPointerRevision : Nat)
      (outcome : Outcome) (reasonCode : ReasonCode) (failure : Option TurnFailure)
      (release : Checked Unit)
  | prepareFencedResponse (clock : Clock) (fence : OwnerFence) (exactTarget : String)
      (draft : ReplyDraft) (boundary : ResponseBoundary)
  | dispatchFencedResponse (clock : Clock) (fence : OwnerFence) (exactTarget : String)
      (boundary : ResponseBoundary)
  | settleFencedResponse (clock : Clock) (fence : OwnerFence) (exactTarget : String)
      (boundary : ResponseBoundary) (appended : Option Message)
  | resolveRetained (clock : Clock) (executionId : ExecutionId) (exactTarget : String)
      (boundary : ResponseBoundary)
  | terminalizeDeadAttempt (clock : Clock) (executionId : ExecutionId)
      (ordinal ownerGeneration attemptRevision executionRevision pointerRevision : Nat)
      (evidence : MonitorEvidence) (loss : Option AttemptAuthority)
      (release : Checked Unit)
  | accumulate (executionId : ExecutionId) (observed : ReplayFacts)
  | authorizeIfUnobserved (executionId : ExecutionId)
  | revoke (executionId : ExecutionId)

/-- The transaction of one call, with what it returned left out. -/
def perform (op : Op) (store : Store) : Checked Store :=
  match op with
  | .register lookup committed => Prod.fst <$> store.register lookup committed
  | .commit lookup => Prod.fst <$> store.commit lookup
  | .advanceGeneration lookup expected => Prod.fst <$> store.advanceGeneration lookup expected
  | .accept assignment => Prod.fst <$> store.accept assignment
  | .transitionPreengagement clock id disposition revision =>
    Prod.fst <$> store.transitionPreengagement clock id disposition revision
  | .create clock id origin owner maxAttempts sources =>
    Prod.fst <$> store.create clock id origin owner maxAttempts sources
  | .markPending clock id revision => Prod.fst <$> store.markPending clock id revision
  | .failUnstarted clock id revision reason =>
    Prod.fst <$> store.failUnstarted clock id revision reason
  | .start clock request => Prod.fst <$> store.start clock request
  | .advance clock fence phase revision done dead progress reason =>
    Prod.fst <$> store.advance clock fence phase revision done dead progress reason
  | .failUnknown clock fence revision release =>
    Prod.fst <$> store.failUnknown clock fence revision release
  | .settleNonpublication clock fence revision outcome reason failure release => Prod.fst <$>
      store.settleNonpublication clock fence revision outcome reason failure release
  | .prepareFencedResponse clock fence target draft boundary =>
    Prod.fst <$> store.prepareFencedResponse clock fence target draft boundary
  | .dispatchFencedResponse clock fence target boundary =>
    Prod.fst <$> store.dispatchFencedResponse clock fence target boundary
  | .settleFencedResponse clock fence target boundary appended =>
    Prod.fst <$> store.settleFencedResponse clock fence target boundary appended
  | .resolveRetained clock id target boundary =>
    Prod.fst <$> store.resolveRetained clock id target boundary
  | .terminalizeDeadAttempt clock id ordinal generation attemptRevision executionRevision
      pointerRevision evidence loss release =>
    Prod.fst <$> store.terminalizeDeadAttempt clock id ordinal generation attemptRevision
      executionRevision pointerRevision evidence loss release
  | .accumulate id observed => Prod.fst <$> Store.recordReplay (·.accumulate id observed) store
  | .authorizeIfUnobserved id =>
    Prod.fst <$> Store.recordReplay (·.authorizeIfUnobserved id) store
  | .revoke id => Prod.fst <$> Store.recordReplay (·.revoke id) store

def reached (ops : List Op) : Store := run perform ops Store.empty

theorem reached_append (ops more : List Op) :
    reached (ops ++ more) = run perform more (reached ops) :=
  run_append perform ops more Store.empty

variable {witnessed : PublicationEvidence → Prop} {store store' : Store}

/-- Every operation is one transaction, so its deferred foreign keys were checked. -/
theorem foreignKeys_of_perform {op : Op} (hok : perform op store = .ok store') :
    store'.ForeignKeys := by
  cases op <;> obtain ⟨⟨_, _⟩, hwriting, rfl⟩ := map_eq_ok.mp hok <;>
    exact (Store.writing_eq_ok.mp hwriting).2

def Op.Acknowledges (op : Op) (store : Store) : PublicationEvidence → Prop :=
  match op with
  | .settleFencedResponse _ fence exactTarget boundary appended =>
    store.Acknowledged (fence.executionId, exactTarget) boundary appended
  | .resolveRetained _ executionId exactTarget boundary =>
    store.Acknowledged (executionId, exactTarget) boundary none
  | _ => fun _ => False

def Op.movesUnbound : Op → Bool
  | .transitionPreengagement .. => true
  | _ => false

theorem committed_of_perform {op : Op} (hop : op.movesUnbound = false)
    (hok : perform op store = .ok store') : Committed (op.Acknowledges store) store store' := by
  cases op <;> obtain ⟨⟨_, _⟩, hwriting, rfl⟩ := map_eq_ok.mp hok
  case transitionPreengagement => cases hop
  case register =>
    obtain ⟨hclaims, hwrites⟩ := Store.register_writes hwriting
    exact .outside hwrites hclaims
  case commit =>
    obtain ⟨hclaims, hwrites⟩ := Store.commit_writes hwriting
    exact .outside hwrites hclaims
  case advanceGeneration => exact Store.advanceGeneration_committed hwriting
  case accept => exact Store.accept_committed hwriting
  case create => exact Store.create_committed hwriting
  case markPending => exact Store.markPending_committed hwriting
  case failUnstarted => exact Store.failUnstarted_committed hwriting
  case start => exact Store.start_committed hwriting
  case advance => exact Store.advance_committed hwriting
  case failUnknown => exact Store.failUnknown_committed hwriting
  case settleNonpublication => exact Store.settleNonpublication_committed hwriting
  case prepareFencedResponse => exact Store.prepareFencedResponse_committed hwriting
  case dispatchFencedResponse => exact Store.dispatchFencedResponse_committed hwriting
  case settleFencedResponse => exact Store.settleFencedResponse_committed hwriting
  case resolveRetained => exact Store.resolveRetained_committed hwriting
  case terminalizeDeadAttempt => exact Store.terminalizeDeadAttempt_committed hwriting
  case accumulate => exact Store.recordReplay_committed hwriting Store.accumulate_assessed
  case authorizeIfUnobserved =>
    exact Store.recordReplay_committed hwriting Store.authorizeIfUnobserved_assessed
  case revoke => exact Store.recordReplay_committed hwriting Store.revoke_assessed

theorem transition_of_perform {op : Op} (hok : perform op store = .ok store') :
    Transition (op.Acknowledges store) store store' := by
  cases hop : op.movesUnbound with
  | false => exact (committed_of_perform hop hok).transition
  | true =>
    cases op
    case transitionPreengagement =>
      obtain ⟨⟨_, _⟩, hwriting, rfl⟩ := map_eq_ok.mp hok
      exact .outside (Store.transitionIn_writes (Store.writing_eq_ok.mp hwriting).1)
    all_goals cases hop

/-! ### One active execution per owner -/

namespace Store

def pointed (store : Store) (owner : ThreadLookup) : Option (ExecutionId × Nat) := do
  let pointer ← store.currentExecutions.get? owner
  let executionId ← pointer.executionId
  let ordinal ← pointer.attemptOrdinal
  pure (executionId, ordinal)

def ActiveFor (store : Store) (owner : ThreadLookup) (execution : ExecutionRecord) : Prop :=
  execution ∈ store.executions.values ∧ execution.ownerLookup = owner ∧
    execution.lifecycle.kind = .active

/-- A pointer that names anything names an active execution of its owner. -/
theorem activeFor_of_pointed (hkeys : store.ForeignKeys) {owner : ThreadLookup}
    {executionId : ExecutionId} {ordinal : Nat}
    (hpointed : store.pointed owner = some (executionId, ordinal)) :
    ∃ execution, store.executions.get? executionId = some execution ∧
      store.ActiveFor owner execution := by
  simp only [pointed, Option.bind_eq_bind, Option.bind_eq_some_iff] at hpointed
  obtain ⟨pointer, hpointer, _, hid, _, hordinal, hpair⟩ := hpointed
  obtain ⟨rfl, rfl⟩ := Prod.mk.inj (Option.some.inj hpair)
  have hreferences := hkeys.1 pointer (Table.mem_values_of_get? hpointer)
  simp only [pointerReferences, hid, hordinal, Bool.and_eq_true] at hreferences
  obtain ⟨execution, hexecution, hactive⟩ := (Option.any_eq_true _ _).mp hreferences.1
  simp only [Bool.and_eq_true, beq_iff_eq] at hactive
  refine ⟨execution, hexecution, Table.mem_values_of_get? hexecution, ?_, ?_⟩
  · rw [hactive.2]
    exact store.currentExecutions.keyed _ _ hpointer
  · rw [hactive.1]
    rfl

/-- An active execution has its live attempt, and its owner points at it. -/
theorem pointed_of_activeFor (hkeys : store.ForeignKeys) {owner : ThreadLookup}
    {execution : ExecutionRecord} (hactive : store.ActiveFor owner execution) :
    ∃ ordinal attempt, execution.lifecycle = .active ordinal ∧
      store.pointed owner = some (execution.executionId, ordinal) ∧
      store.attempts.get? (execution.executionId, ordinal) = some attempt ∧
      attempt.ownerLookup = owner ∧ attempt.lifecycle.isLive = true := by
  obtain ⟨hmem, rfl, hkind⟩ := hactive
  have hreferences := hkeys.2.1 execution hmem
  cases hstate : execution.lifecycle with
  | active ordinal =>
    simp only [executionReferences, hstate, Bool.and_eq_true] at hreferences
    obtain ⟨⟨hattempt, hpointer⟩, -⟩ := hreferences
    obtain ⟨attempt, hget, hlive⟩ := (Option.any_eq_true _ _).mp hattempt
    obtain ⟨pointer, hpointerGet, hnames⟩ := (Option.any_eq_true _ _).mp hpointer
    simp only [Bool.and_eq_true, beq_iff_eq] at hlive hnames
    refine ⟨ordinal, attempt, rfl, ?_, hget, hlive.1, hlive.2⟩
    simp [pointed, hpointerGet, hnames.1, hnames.2]
  | queued | pending | deferred _ | completed _ | failed _ =>
    rw [hstate] at hkind
    cases hkind

end Store

theorem foreignKeys_reached (ops : List Op) : (reached ops).ForeignKeys :=
  run_invariant Store.ForeignKeys (fun _ _ _ _ hok => foreignKeys_of_perform hok) ops
    (by simp [Store.ForeignKeys, Store.empty, Table.values, Table.empty, Dict.values, Dict.empty])

/-- In every reachable store an owner's pointer is set exactly when it has an active
execution; that execution is the only one, the pointer names it with its current
attempt, the attempt is a live one of the owner, and no other attempt is live. -/
theorem single_active_execution (ops : List Op) (owner : ThreadLookup) :
    (((reached ops).pointed owner).isSome = true ↔
      ∃ execution, (reached ops).ActiveFor owner execution) ∧
    (∀ execution execution', (reached ops).ActiveFor owner execution →
      (reached ops).ActiveFor owner execution' → execution = execution') ∧
    (∀ execution, (reached ops).ActiveFor owner execution → ∃ ordinal attempt,
      execution.lifecycle.currentAttemptOrdinal = some ordinal ∧
      (reached ops).pointed owner = some (execution.executionId, ordinal) ∧
      (reached ops).attempts.get? (execution.executionId, ordinal) = some attempt ∧
      attempt.ownerLookup = owner ∧ attempt.lifecycle.isLive = true) ∧
    (∀ attempt ∈ (reached ops).attempts.values, attempt.ownerLookup = owner →
      attempt.lifecycle.isLive = true →
      (reached ops).pointed owner = some (attempt.executionId, attempt.attemptOrdinal)) := by
  have hkeys := foreignKeys_reached ops
  refine ⟨⟨fun hsome => ?_, fun ⟨execution, hactive⟩ => ?_⟩, ?_, ?_, ?_⟩
  · obtain ⟨⟨executionId, ordinal⟩, hpointed⟩ := Option.isSome_iff_exists.mp hsome
    obtain ⟨execution, -, hactive⟩ := Store.activeFor_of_pointed hkeys hpointed
    exact ⟨execution, hactive⟩
  · obtain ⟨_, _, -, hpointed, -⟩ := Store.pointed_of_activeFor hkeys hactive
    rw [hpointed]
    rfl
  · intro execution execution' hactive hactive'
    -- Both are the execution the one pointer names.
    obtain ⟨_, _, -, hpointed, -⟩ := Store.pointed_of_activeFor hkeys hactive
    obtain ⟨_, _, -, hpointed', -⟩ := Store.pointed_of_activeFor hkeys hactive'
    rw [hpointed, Option.some.injEq, Prod.mk.injEq] at hpointed'
    exact Table.eq_of_key (Table.mem_values.mp hactive.1) (Table.mem_values.mp hactive'.1)
      hpointed'.1
  · intro execution hactive
    obtain ⟨ordinal, attempt, hstate, hpointed⟩ := Store.pointed_of_activeFor hkeys hactive
    exact ⟨ordinal, attempt, by rw [hstate]; rfl, hpointed⟩
  · rintro attempt hmem rfl hlive
    have hreferences := hkeys.2.2.1 attempt hmem
    simp only [Store.attemptReferences, hlive, Bool.not_true, Bool.false_or] at hreferences
    obtain ⟨execution, hexecution, hactive⟩ := (Option.any_eq_true _ _).mp hreferences
    simp only [Bool.and_eq_true, beq_iff_eq] at hactive
    obtain ⟨ordinal, _, hstate', hpointed, -⟩ := Store.pointed_of_activeFor hkeys
      ⟨Table.mem_values_of_get? hexecution, hactive.2, by rw [hactive.1]; rfl⟩
    rw [hactive.1, ExecutionState.active.injEq] at hstate'
    have hid : execution.executionId = attempt.executionId := Table.keyed _ _ _ hexecution
    rw [hpointed, hstate', hid]

/-! ### Attempt history -/

theorem evolves_of_transition (htransition : Transition witnessed store store') :
    ∃ own, Evolves own witnessed store store' := by
  cases htransition with
  | wrote own hwrites => exact ⟨own, hwrites.toEvolves⟩
  | started executionId ordinal hstarted => exact ⟨some executionId, hstarted.evolves⟩

def Store.AttemptsNumbered (store : Store) : Prop :=
  ∀ executionId ordinal, (store.attempts.get? (executionId, ordinal)).isSome = true ↔
    1 ≤ ordinal ∧ ordinal ≤ (store.currentOrdinal executionId).getD 0

theorem attemptsNumbered_of_transition (hnumbered : store.AttemptsNumbered)
    (htransition : Transition witnessed store store') : store'.AttemptsNumbered := by
  intro id ordinal
  cases htransition with
  | wrote own hwrites =>
    rw [hwrites.keys, hnumbered, Store.currentOrdinal, Store.currentOrdinal, hwrites.ordinals]
  | started executionId next hstarted =>
    rw [hstarted.keys, hnumbered, Prod.mk.injEq]
    by_cases hid : id = executionId
    · subst hid
      have hnext := hstarted.next
      rw [hstarted.current, Option.getD_some]
      constructor
      · omega
      · rintro ⟨hpos, hle⟩
        by_cases heq : ordinal = next
        · exact .inl ⟨rfl, heq⟩
        · exact .inr ⟨hpos, by omega⟩
    · rw [hstarted.others id hid]
      simp [hid]

theorem attemptsNumbered_reached (ops : List Op) : (reached ops).AttemptsNumbered := by
  refine run_invariant Store.AttemptsNumbered (fun _ _ _ hnumbered hok =>
    attemptsNumbered_of_transition hnumbered (transition_of_perform hok)) ops ?_
  intro executionId ordinal
  constructor
  · exact nofun
  · rintro ⟨hpos, hle⟩
    exact absurd (hpos.trans hle) (Nat.not_succ_le_zero 0)

theorem attemptHistory_reached (ops : List Op) :
    AttemptHistory (reached ops).attempts (reached ops).executions := by
  refine run_invariant (fun store : Store => AttemptHistory store.attempts store.executions)
    (fun _ _ _ hhistory hok => ?_) ops ⟨?_, ?_, ?_⟩
  · obtain ⟨_, hevolves⟩ := evolves_of_transition (transition_of_perform hok)
    exact hevolves.history hhistory
  all_goals
    intros
    contradiction

variable {executionId : ExecutionId}

/-- Generations increase along the attempts of an execution, not only from one to
the next. -/
theorem AttemptHistory.generation_lt {attempts : Table AttemptRecord}
    {executions : Table ExecutionRecord} (hhistory : AttemptHistory attempts executions)
    {i j : Nat} {row row' : AttemptRecord} (hpos : 1 ≤ i)
    (hlt : i < j) (hget : attempts.get? (executionId, i) = some row)
    (hget' : attempts.get? (executionId, j) = some row') :
    row.ownerGeneration < row'.ownerGeneration := by
  induction j generalizing row' with
  | zero => omega
  | succ j ih =>
    obtain ⟨previous, hprevious, -, hgeneration⟩ := hhistory.preceded hget' (by omega)
    rw [Nat.add_sub_cancel] at hprevious
    by_cases heq : i = j
    · subst heq
      rw [hget, Option.some.injEq] at hprevious
      rwa [hprevious]
    · exact (ih (by omega) hprevious).trans hgeneration

/-- The attempts of a stored execution are exactly `1 .. k` for its current ordinal
`k`, which is within the budget; their generations increase, their tokens differ,
and every one but the last failed finally. -/
theorem attempts_in_order (ops : List Op) (execution : ExecutionRecord)
    (hstored : execution ∈ (reached ops).executions.values) :
    (∀ ordinal, ((reached ops).attempts.get? (execution.executionId, ordinal)).isSome = true ↔
      1 ≤ ordinal ∧ ordinal ≤ execution.lifecycle.currentAttemptOrdinal.getD 0) ∧
    execution.lifecycle.currentAttemptOrdinal.getD 0 ≤ execution.maxAttempts ∧
    (∀ i j row row', (reached ops).attempts.get? (execution.executionId, i) = some row →
      (reached ops).attempts.get? (execution.executionId, j) = some row' → i < j →
      row.ownerGeneration < row'.ownerGeneration ∧
        row.ownerTokenDigest ≠ row'.ownerTokenDigest) ∧
    (∀ i row, (reached ops).attempts.get? (execution.executionId, i) = some row →
      i < execution.lifecycle.currentAttemptOrdinal.getD 0 →
      row.lifecycle = .terminal .attemptFailed ∧ row.lifecycle.backendDone = true ∧
        row.lifecycle.processDead = true) := by
  have hget : (reached ops).executions.get? execution.executionId = some execution :=
    Table.mem_values.mp hstored
  have hhistory := attemptHistory_reached ops
  have hnumbered : ∀ ordinal,
      ((reached ops).attempts.get? (execution.executionId, ordinal)).isSome = true ↔
        1 ≤ ordinal ∧ ordinal ≤ execution.lifecycle.currentAttemptOrdinal.getD 0 := by
    intro ordinal
    rw [attemptsNumbered_reached, Store.currentOrdinal, hget, Option.bind_some]
  refine ⟨hnumbered, ?_, ?_, ?_⟩
  · obtain ⟨-, -, -, hbudget, -⟩ := (reached ops).executions.valid _ _ hget
    simp only [ExecutionState.withinBudget, Bool.and_eq_true] at hbudget
    cases hordinal : execution.lifecycle.currentAttemptOrdinal with
    | none => exact Nat.zero_le _
    | some =>
      simp only [hordinal, Option.all_some, Bool.and_eq_true, decide_eq_true_eq] at hbudget
      exact hbudget.1.2
  · intro i j row row' hrow hrow' hlt
    have hpos := ((hnumbered i).mp (by rw [hrow]; rfl)).1
    refine ⟨hhistory.generation_lt hpos hlt hrow hrow', fun hdigest => ?_⟩
    have hkeys := hhistory.tokens hrow hrow' hdigest
    exact absurd (Prod.mk.inj hkeys).2 (by omega)
  · intro i row hrow hlt
    -- The attempt has a successor, and only a finally failed one may be succeeded.
    obtain ⟨next, hnext⟩ :=
      Option.isSome_iff_exists.mp ((hnumbered (i + 1)).mpr ⟨by omega, by omega⟩)
    have hpos := ((hnumbered i).mp (by rw [hrow]; rfl)).1
    obtain ⟨previous, hprevious, hfailed, -⟩ := hhistory.preceded hnext (by omega)
    rw [Nat.add_sub_cancel, hrow, Option.some.injEq] at hprevious
    rw [hprevious, hfailed]
    exact ⟨rfl, rfl, rfl⟩

def sampleClaim : WakeAssignment :=
  { assignmentId := "k", recipient := "a", recipientLookup := "a", wireSeq := 1, messageId := "m",
    audience := .direct, lifecycle := .fullPending, acceptedAt := 0, updatedAt := 0, revision := 1,
    resolverVersion, policyVersion }

def sampleSource : SelectedSource :=
  ⟨"k", ⟨1, "m"⟩, "general", [(⟨"a", "a"⟩, .wake "a" .direct (.active .full))]⟩

/-- One owner accepts a claim, engages it and starts the first attempt. -/
def sampleRun : List Op :=
  [.register "a" true, .accept sampleClaim,
    .create (fun _ => 0) "x" .wire "a" 2 [sampleSource], .markPending (fun _ => 0) "x" 1,
    .start (fun _ => 0) ⟨"x", 1, "a", 1, "t", 2, 0⟩]

def sampleExecution : ExecutionRecord :=
  { executionId := "x", origin := .wire, lifecycle := .active 1, ownerLookup := "a",
    revision := 3, maxAttempts := 2, reasonCode := none, createdAt := 0, updatedAt := 0 }

theorem attempts_in_order_sample :
    sampleExecution ∈ (reached sampleRun).executions.values ∧
      ((reached sampleRun).attempts.get? ("x", 1)).isSome = true := by
  have hstored : sampleExecution ∈ (reached sampleRun).executions.values := by decide +kernel
  exact ⟨hstored, ((attempts_in_order sampleRun sampleExecution hstored).1 1).mpr (by decide)⟩

/-! ### Coherence -/

theorem coherent_of_transition (hcoherent : ∀ executionId, store.Coherent executionId)
    (htransition : Transition witnessed store store') (executionId : ExecutionId) :
    store'.Coherent executionId := by
  cases htransition with
  | wrote own hwrites hown =>
    by_cases howned : own = some executionId
    · exact hown executionId howned (hcoherent executionId)
    · exact hwrites.toEvolves.coherent howned (hcoherent executionId)
  | started other ordinal hstarted hafter =>
    by_cases hother : other = executionId
    · exact hother ▸ hafter
    · exact hstarted.evolves.coherent (fun hsame => hother (Option.some.inj hsame))
        (hcoherent executionId)

theorem coherent_reached (ops : List Op) (executionId : ExecutionId) :
    (reached ops).Coherent executionId :=
  run_invariant (fun store => ∀ executionId, store.Coherent executionId)
    (fun _ _ _ hcoherent hok => coherent_of_transition hcoherent (transition_of_perform hok)) ops
    (fun _ hsome => absurd hsome Bool.false_ne_true) executionId

/-- A failed execution that can be read has no receipt and no authorized retry. -/
theorem RecoverySnapshot.Consistent.failed {snapshot : RecoverySnapshot}
    (hconsistent : snapshot.Consistent) (hfailed : snapshot.execution.lifecycle.kind = .failed) :
    snapshot.publicationEvidence = [] ∧ snapshot.retryAuthorized = false := by
  have hlifecycle := hconsistent.lifecycle
  have hexists := hconsistent.attemptExists
  cases hstate : snapshot.execution.lifecycle with
  | failed ordinal =>
    simp only [validateLifecycle, hstate, do_eq_ok, exists_const] at hlifecycle
    refine ⟨hlifecycle.1, hlifecycle.2.elim (fun hnone => ?_) id⟩
    -- Without an attempt there is no ordinal, and so no budget for a retry.
    rw [hnone, Option.isNone_none, Option.isNone_iff_eq_none] at hexists
    simp [retryAuthorized, ExecutionState.hasRetryBudget, hexists]
  | queued | pending | active _ | deferred _ | completed _ =>
    rw [hstate] at hfailed
    cases hfailed

/-- Every stored execution of every reachable store can be read, and its records
agree. -/
theorem snapshots_coherent (ops : List Op) (execution : ExecutionRecord)
    (hstored : execution ∈ (reached ops).executions.values) :
    ∃ snapshot, (reached ops).get execution.executionId = .ok snapshot ∧
      snapshot.execution = execution ∧
      snapshot.links.map ExecutionAssignmentLink.assignmentId =
        snapshot.assignments.map WakeAssignment.assignmentId ∧
      snapshot.links.map ExecutionAssignmentLink.ordinal =
        List.range snapshot.assignments.length ∧
      (∀ claim ∈ snapshot.assignments, claim.recipientLookup = execution.ownerLookup ∧
        claim.lifecycle.kind = execution.lifecycle.kind.assignmentState) ∧
      (snapshot.obligations.map ResponseObligation.exactTarget).Nodup ∧
      (∀ target, target ∈ snapshot.obligations.map ResponseObligation.exactTarget ↔
        some target ∈ snapshot.assignments.map fun claim => claim.lifecycle.exactTarget) ∧
      (∀ row ∈ snapshot.obligations, row.lifecycle.validatePublication
        (snapshot.intentFor row.exactTarget) (snapshot.evidenceFor row.exactTarget) = .ok ()) ∧
      snapshot.attempt.isSome = execution.lifecycle.currentAttemptOrdinal.isSome ∧
      (∀ attempt ∈ snapshot.attempt,
        execution.lifecycle.acceptsAttempt attempt.lifecycle = true) ∧
      (execution.lifecycle.kind = .failed →
        snapshot.publicationEvidence = [] ∧ snapshot.retryAuthorized = false) := by
  have hget : (reached ops).executions.get? execution.executionId = some execution :=
    Table.mem_values.mp hstored
  obtain ⟨snapshot, hsnapshot⟩ := coherent_reached ops execution.executionId (by rw [hget]; rfl)
  obtain ⟨hread, hconsistent⟩ := Store.get_eq_ok.mp hsnapshot
  obtain rfl : snapshot.execution = execution := Option.mem_unique hread.execution hget
  refine ⟨snapshot, hsnapshot, rfl, hconsistent.linked, hconsistent.ordered,
    fun claim hclaim => ⟨hconsistent.owner claim hclaim, hconsistent.kinds claim hclaim⟩,
    hconsistent.targets, fun target => ⟨hconsistent.targetsRouted target, fun hroute => ?_⟩,
    hconsistent.publications, ?_, hconsistent.attemptAccepted, hconsistent.failed⟩
  · obtain ⟨target', htarget', hsame⟩ := hconsistent.routesOwed _ hroute
    exact Option.some.inj hsame ▸ htarget'
  · have hexists := hconsistent.attemptExists
    rw [← Option.not_isSome, ← Option.not_isSome, Bool.not_inj_iff] at hexists
    exact hexists.symm

theorem snapshots_coherent_sample :
    sampleExecution ∈ (reached sampleRun).executions.values ∧
      ∃ snapshot, (reached sampleRun).get "x" = .ok snapshot := by
  have hstored : sampleExecution ∈ (reached sampleRun).executions.values := by decide +kernel
  obtain ⟨snapshot, hget, -⟩ := snapshots_coherent sampleRun sampleExecution hstored
  exact ⟨hstored, snapshot, hget⟩

/-! ### Replay -/

/-- Facts are only added, safety is only lost, side effects are only found. -/
def ReplayAssessment.Grows (old new : ReplayAssessment) : Prop :=
  new.facts ||| old.facts = new.facts ∧ (new.replaySafe = true → old.replaySafe = true) ∧
    (old.sideEffectsPossible = true → new.sideEffectsPossible = true)

theorem ReplayAssessment.grows_of_chain {old new : ReplayAssessment}
    (hchain : ReflTransGen Record.Admits old new) : old.Grows new := by
  induction hchain with
  | refl => exact ⟨BitVec.or_self, id, id⟩
  | tail _ hadmits ih =>
    obtain ⟨hfacts, hsafe, hside⟩ := ih
    obtain ⟨-, -, hside', hsafe', hfacts'⟩ := hadmits
    refine ⟨?_, hsafe ∘ hsafe', hside' ∘ hside⟩
    rw [← hfacts', BitVec.or_assoc, hfacts]

theorem ReplayAssessment.allowsRetry_iff {row : ReplayAssessment} : row.allowsRetry = true ↔
    row.facts = ReplayFact.none ∧ row.replaySafe = true ∧ row.sideEffectsPossible = false := by
  simp only [allowsRetry, Bool.and_eq_true, beq_iff_eq, Bool.not_eq_true']
  tauto

theorem Store.replay_of_retryBasis (hbasis : store.retryBasis executionId = true) :
    ∃ row, store.replayAssessments.get? executionId = some row ∧ row.allowsRetry = true := by
  obtain ⟨_, -, hbasis⟩ := (Option.any_eq_true _ _).mp hbasis
  simp only [Bool.and_eq_true] at hbasis
  exact (Option.any_eq_true _ _).mp hbasis.1.2

/-- A committed observation stands in the execution's facts. -/
theorem Store.accumulate_records {observed : ReplayFacts}
    (hok : store.accumulate executionId observed = .ok store')
    (hobserved : observed ≠ ReplayFact.none) :
    ∃ row, store'.replayAssessments.get? executionId = some row ∧
      row.facts ||| observed = row.facts := by
  unfold accumulate at hok
  split at hok
  · rw [if_neg hobserved] at hok
    simp only [insertReplayAssessment, bind_eq_ok, accepted_eq_ok, afterWrite_eq_ok] at hok
    obtain ⟨-, -, table, hinsert, -, rfl⟩ := hok
    exact ⟨_, ((Table.inserted_of_insert? hinsert).get?_eq _).trans (if_pos rfl), BitVec.or_self⟩
  next row hrow =>
    split at hok
    next hknown =>
      cases hok
      exact ⟨row, hrow, (hknown.resolve_left hobserved).1⟩
    · simp only [updateReplayAssessment, bind_eq_ok, accepted_eq_ok, afterWrite_eq_ok] at hok
      obtain ⟨table, hupdate, -, rfl⟩ := hok
      cases Table.updated_of_update? hupdate with
      | unmatched _ hnone => cases hnone _ hrow
      | changed old _ _ _ _ hget =>
        refine ⟨_, (hget _).trans (if_pos rfl), ?_⟩
        rw [BitVec.or_assoc, BitVec.or_self]

/-- An attempt after the first is only started on replay evidence that allows it. -/
theorem replay_of_new_attempt (htransition : Transition witnessed store store')
    {ordinal : Nat} (hordinal : 1 < ordinal)
    (hbefore : store.attempts.get? (executionId, ordinal) = none)
    (hafter : (store'.attempts.get? (executionId, ordinal)).isSome = true) :
    ∃ row, store.replayAssessments.get? executionId = some row ∧ row.allowsRetry = true := by
  cases htransition with
  | wrote own hwrites =>
    rw [hwrites.keys, hbefore] at hafter
    cases hafter
  | started other next hstarted =>
    rcases (hstarted.keys _).mp hafter with hkey | hsome
    · obtain ⟨rfl, rfl⟩ := Prod.mk.inj hkey
      exact Store.replay_of_retryBasis (hstarted.retry hordinal)
    · rw [hbefore] at hsome
      cases hsome

/-- What a run keeps of an execution's replay evidence: the row lives on and only
grows, and if it ever forbade a retry no attempt after the first was added. -/
structure ReplayKept (base : Store) (executionId : ExecutionId) (row : ReplayAssessment)
    (store : Store) : Prop where
  kept : ∃ row', store.replayAssessments.get? executionId = some row' ∧
    ReflTransGen Record.Admits row row'
  attempts : row.allowsRetry = false → ∀ ordinal, 1 < ordinal →
    (store.attempts.get? (executionId, ordinal)).isSome = true →
    (base.attempts.get? (executionId, ordinal)).isSome = true

theorem replayKept_of_transition {base : Store}
    {row : ReplayAssessment} (hkept : ReplayKept base executionId row store)
    (htransition : Transition witnessed store store') : ReplayKept base executionId row store' := by
  obtain ⟨row', hrow', hchain⟩ := hkept.kept
  obtain ⟨_, hevolves⟩ := evolves_of_transition htransition
  refine ⟨?_, fun hforbids ordinal hordinal hafter => ?_⟩
  · obtain ⟨row'', hrow'', hchain'⟩ := hevolves.replayAssessments.kept hrow'
    exact ⟨row'', hrow'', hchain.trans hchain'⟩
  · cases hbefore : store.attempts.get? (executionId, ordinal) with
    | some => exact hkept.attempts hforbids ordinal hordinal (by rw [hbefore]; rfl)
    | none =>
      -- The evidence the start used still forbids the retry it forbade at first.
      obtain ⟨used, hused, hallows⟩ := replay_of_new_attempt htransition hordinal hbefore hafter
      rw [hrow', Option.some.injEq] at hused
      rw [allowsRetry_of_chain hchain (hused ▸ hallows)] at hforbids
      cases hforbids

/-- Replay evidence only grows along every run; once a fact is recorded no attempt
after the first is ever added; and an attempt after the first is only started on
evidence without facts that is safe and free of side effects. -/
theorem no_retry_after_observed_effect (ops : List Op) (executionId : ExecutionId) :
    (∀ observed store', perform (.accumulate executionId observed) (reached ops) = .ok store' →
      observed ≠ ReplayFact.none → ∃ row, store'.replayAssessments.get? executionId = some row ∧
        row.facts ||| observed = row.facts) ∧
    (∀ more row, (reached ops).replayAssessments.get? executionId = some row →
      ∃ row', (reached (ops ++ more)).replayAssessments.get? executionId = some row' ∧
        row.Grows row') ∧
    (∀ more row, (reached ops).replayAssessments.get? executionId = some row →
      row.facts ≠ ReplayFact.none → ∀ ordinal, 1 < ordinal →
      ((reached (ops ++ more)).attempts.get? (executionId, ordinal)).isSome = true →
      ((reached ops).attempts.get? (executionId, ordinal)).isSome = true) ∧
    (∀ op ordinal, 1 < ordinal → (reached ops).attempts.get? (executionId, ordinal) = none →
      ((reached (ops ++ [op])).attempts.get? (executionId, ordinal)).isSome = true →
      ∃ row, (reached ops).replayAssessments.get? executionId = some row ∧
        row.facts = ReplayFact.none ∧ row.replaySafe = true ∧ row.sideEffectsPossible = false) := by
  have hkept : ∀ more row, (reached ops).replayAssessments.get? executionId = some row →
      ReplayKept (reached ops) executionId row (reached (ops ++ more)) := by
    intro more row hrow
    rw [reached_append]
    exact run_invariant (ReplayKept (reached ops) executionId row) (fun _ _ _ hkept hok =>
      replayKept_of_transition hkept (transition_of_perform hok)) more
      ⟨⟨row, hrow, .refl⟩, fun _ _ _ => id⟩
  refine ⟨?_, ?_, ?_, ?_⟩
  · intro observed store' hok hobserved
    obtain ⟨⟨after, _⟩, hrecord, rfl⟩ := map_eq_ok.mp hok
    obtain ⟨hrecord, -⟩ := Store.writing_eq_ok.mp hrecord
    simp only [do_eq_ok] at hrecord
    obtain ⟨_, haccumulate, rfl, -⟩ := hrecord
    exact Store.accumulate_records haccumulate hobserved
  · intro more row hrow
    obtain ⟨row', hrow', hchain⟩ := (hkept more row hrow).kept
    exact ⟨row', hrow', ReplayAssessment.grows_of_chain hchain⟩
  · intro more row hrow hfacts ordinal hordinal hafter
    refine (hkept more row hrow).attempts ?_ ordinal hordinal hafter
    rw [← Bool.not_eq_true, ReplayAssessment.allowsRetry_iff]
    exact fun hallows => hfacts hallows.1
  · intro op ordinal hordinal hbefore hafter
    rw [reached_append, run_cons, run_nil] at hafter
    rcases commit_cases (perform op) (reached ops) with hok | hsame
    · obtain ⟨row, hrow, hallows⟩ :=
        replay_of_new_attempt (transition_of_perform hok) hordinal hbefore hafter
      exact ⟨row, hrow, ReplayAssessment.allowsRetry_iff.mp hallows⟩
    · rw [hsame, hbefore] at hafter
      cases hafter

end AgentComms.Coordination
