import AgentComms.Coordination.Fencing

/-!
# The database's side of a settlement

Whether an attempt may be retried is decided twice: by `retry_authorized` over the decoded
records and by the view `retry_disposition_basis` over the columns SQLite generates from the
stored rows. A settlement decides on the first and its updates are guarded by the second,
each statement seeing the rows as the statements before it left them.
-/

namespace AgentComms.Coordination

open Library Relation

/-! ### SQL conditions -/

namespace Sql

abbrev Truth := Option Bool

/-- `left AND right`. -/
def conj : Truth → Truth → Truth
  | some false, _ => some false
  | _, some false => some false
  | some true, some true => some true
  | _, _ => none

/-- `left < right` for a nullable column. -/
def less (left : Option Nat) (right : Nat) : Truth := left.map fun value => decide (value < right)

/-- `CASE WHEN condition THEN 1 ELSE 0 END`. -/
def caseWhen (condition : Truth) : Nat := if condition = some true then 1 else 0

@[simp] theorem conj_eq_true {left right : Truth} :
    conj left right = some true ↔ left = some true ∧ right = some true := by
  rcases left with _ | _ | _ <;> rcases right with _ | _ | _ <;> simp [conj]

theorem less_eq_true {left : Option Nat} {right : Nat} :
    less left right = some true ↔ ∃ value, left = some value ∧ value < right := by
  cases left <;> simp [less]

theorem caseWhen_eq_one {condition : Truth} : caseWhen condition = 1 ↔ condition = some true := by
  unfold caseWhen
  split <;> simp_all

theorem caseWhen_eq_zero {condition : Truth} : caseWhen condition = 0 ↔ condition ≠ some true := by
  unfold caseWhen
  split <;> simp_all

end Sql

/-! ### Generated columns -/

/-- The member `ordinal` of a stored lifecycle: absent, null or a number. -/
def ExecutionState.ordinalMember : ExecutionState → Option (Option Nat)
  | queued | pending => none
  | active ordinal | completed ordinal => some (some ordinal)
  | deferred ordinal | failed ordinal => some ordinal

/-- `current_attempt_ordinal`: `json_extract(lifecycle, '$.ordinal')`. -/
def ExecutionRecord.currentAttemptOrdinalColumn (row : ExecutionRecord) : Option Nat :=
  row.lifecycle.ordinalMember.join

def ReplayAssessment.retryAuthorizedColumn (row : ReplayAssessment) : Nat :=
  Sql.caseWhen (Sql.conj (some (row.facts == ReplayFact.none))
    (Sql.conj (some row.replaySafe) (some !row.sideEffectsPossible)))

def ResponseKind.members : List ResponseKind :=
  [.pending, .publishing, .published, .deferred, .silent, .failed]

def retryableResponseNames : List ResponseKind := ResponseKind.members.filter (·.retryable)

def ResponseObligation.retryableColumn (row : ResponseObligation) : Nat :=
  Sql.caseWhen (some (row.lifecycle.kind ∈ retryableResponseNames))

namespace Store

variable {store store' : Store} {executionId : ExecutionId} {snapshot : RecoverySnapshot}

def retrySql (store : Store) (execution : ExecutionRecord) : Bool :=
  execution.origin != .wire ||
    (store.obligations.values.any (fun row => row.executionId == execution.executionId) &&
      !store.obligations.values.any fun row =>
        row.executionId == execution.executionId && row.retryableColumn != 1)

def authorizedColumn (store : Store) (execution : ExecutionRecord) : Nat :=
  Sql.caseWhen (Sql.conj (some execution.currentAttemptOrdinalColumn.isSome)
    (Sql.conj (Sql.less execution.currentAttemptOrdinalColumn execution.maxAttempts)
      (Sql.conj (some (store.replayAssessments.values.any fun row =>
          row.executionId == execution.executionId && row.retryAuthorizedColumn == 1))
        (some (store.retrySql execution)))))

/-- The view `retry_disposition_basis`. -/
def retryDispositionBasis (store : Store) : List (ExecutionId × Nat) :=
  store.executions.values.map fun execution =>
    (execution.executionId, store.authorizedColumn execution)

end Store

/-! ### Both sides agree -/

theorem ReplayAssessment.retryAuthorizedColumn_eq_one {row : ReplayAssessment} :
    row.retryAuthorizedColumn = 1 ↔ row.allowsRetry = true := by
  rw [retryAuthorizedColumn, Sql.caseWhen_eq_one, allowsRetry]
  simp only [Sql.conj_eq_true, Option.some.injEq, Bool.and_eq_true]
  constructor
  · rintro ⟨hfacts, hsafe, heffects⟩
    exact ⟨⟨hsafe, hfacts⟩, heffects⟩
  · rintro ⟨⟨hsafe, hfacts⟩, heffects⟩
    exact ⟨hfacts, hsafe, heffects⟩

theorem ResponseObligation.retryableColumn_eq_one {row : ResponseObligation} :
    row.retryableColumn = 1 ↔ row.lifecycle.kind.retryable = true := by
  rw [retryableColumn, Sql.caseWhen_eq_one, Option.some.injEq, decide_eq_true_eq]
  cases row.lifecycle.kind <;> simp [retryableResponseNames, ResponseKind.members,
    ResponseKind.retryable]

namespace Store

variable {store store' : Store} {executionId : ExecutionId} {snapshot : RecoverySnapshot}

theorem retrySql_eq (store : Store) (execution : ExecutionRecord) :
    store.retrySql execution = store.routesRetryable execution := by
  have hexists : store.obligations.values.any
      (fun row => row.executionId == execution.executionId) =
        !(store.owed execution.executionId).isEmpty := by
    rw [Bool.eq_iff_iff, List.any_eq_true, Bool.not_eq_true', ← Bool.not_eq_true,
      List.isEmpty_iff, owed, List.filter_eq_nil_iff]
    push Not
    rfl
  have hall : (!store.obligations.values.any fun row =>
      row.executionId == execution.executionId && row.retryableColumn != 1) =
        (store.owed execution.executionId).all fun row => row.lifecycle.kind.retryable := by
    rw [owed, List.all_filter, List.not_any_eq_all_not, Bool.eq_iff_iff, List.all_eq_true,
      List.all_eq_true]
    refine forall₂_congr fun row _ => ?_
    by_cases hretryable : row.lifecycle.kind.retryable = true
    · simp [hretryable, ResponseObligation.retryableColumn_eq_one.mpr hretryable]
    · have hcolumn : row.retryableColumn ≠ 1 :=
        fun hone => hretryable (ResponseObligation.retryableColumn_eq_one.mp hone)
      simp [hretryable, hcolumn]
  rw [retrySql, routesRetryable, hexists, hall]

variable {execution : ExecutionRecord}
  (hget : store.executions.get? executionId = some execution)
include hget

theorem authorizedColumn_eq_one :
    store.authorizedColumn execution = 1 ↔ store.retryBasis executionId = true := by
  have hid : execution.executionId = executionId := store.executions.keyed _ _ hget
  have hreplay : (store.replayAssessments.values.any fun row =>
      row.executionId == execution.executionId && row.retryAuthorizedColumn == 1) = true ↔
        (store.replayAssessments.get? executionId).any ReplayAssessment.allowsRetry = true := by
    rw [List.any_eq_true, Option.any_eq_true]
    constructor
    · rintro ⟨row, hrow, hmatches⟩
      rw [Bool.and_eq_true, beq_iff_eq, beq_iff_eq] at hmatches
      have hstored := Table.mem_values.mp hrow
      rw [show Record.key row = executionId from hmatches.1.trans hid] at hstored
      exact ⟨row, hstored, ReplayAssessment.retryAuthorizedColumn_eq_one.mp hmatches.2⟩
    · rintro ⟨row, hstored, hallows⟩
      have hkey : row.executionId = executionId := store.replayAssessments.keyed _ _ hstored
      refine ⟨row, Table.mem_values_of_get? hstored, ?_⟩
      rw [Bool.and_eq_true, beq_iff_eq, beq_iff_eq]
      exact ⟨hkey.trans hid.symm, ReplayAssessment.retryAuthorizedColumn_eq_one.mpr hallows⟩
  have hbudget : execution.lifecycle.hasRetryBudget execution.maxAttempts = true ↔
      ∃ ordinal, execution.lifecycle.currentAttemptOrdinal = some ordinal ∧
        ordinal < execution.maxAttempts := by
    unfold ExecutionState.hasRetryBudget
    cases execution.lifecycle.currentAttemptOrdinal <;> simp
  have hcolumn : execution.currentAttemptOrdinalColumn =
      execution.lifecycle.currentAttemptOrdinal := by
    unfold ExecutionRecord.currentAttemptOrdinalColumn
    cases execution.lifecycle <;> rfl
  rw [authorizedColumn, Sql.caseWhen_eq_one, hcolumn, retryBasis,
    hget, Option.any_some, Bool.and_eq_true, Bool.and_eq_true, hbudget]
  simp only [Sql.conj_eq_true, Sql.less_eq_true, Option.some.injEq, hreplay, retrySql_eq]
  constructor
  · rintro ⟨-, hordinal, hallows, hroutes⟩
    exact ⟨⟨hordinal, hallows⟩, hroutes⟩
  · rintro ⟨⟨⟨ordinal, hordinal, hlt⟩, hallows⟩, hroutes⟩
    exact ⟨by rw [hordinal]; rfl, ⟨ordinal, hordinal, hlt⟩, hallows, hroutes⟩

theorem mem_retryDispositionBasis {authorized : Nat} :
    (executionId, authorized) ∈ store.retryDispositionBasis ↔
      authorized = store.authorizedColumn execution := by
  have hid : execution.executionId = executionId := store.executions.keyed _ _ hget
  rw [retryDispositionBasis, List.mem_map]
  constructor
  · rintro ⟨row, hrow, hpair⟩
    obtain ⟨hkey, rfl⟩ := Prod.mk.inj hpair
    have hstored := Table.mem_values.mp hrow
    rw [show Record.key row = executionId from hkey, hget, Option.some.injEq] at hstored
    rw [hstored]
  · rintro rfl
    exact ⟨execution, Table.mem_values_of_get? hget, by rw [hid]⟩

/-- The view has one row for the execution, and it says what the store's records do. -/
theorem retryDispositionBasis_eq :
    ((executionId, 1) ∈ store.retryDispositionBasis ↔ store.retryBasis executionId = true) ∧
      ((executionId, 0) ∈ store.retryDispositionBasis ↔ store.retryBasis executionId = false) := by
  have hone := authorizedColumn_eq_one hget
  have hzero : store.authorizedColumn execution = 0 ↔ ¬ store.authorizedColumn execution = 1 := by
    rw [authorizedColumn, Sql.caseWhen_eq_zero, Sql.caseWhen_eq_one]
  rw [mem_retryDispositionBasis hget, mem_retryDispositionBasis hget]
  refine ⟨eq_comm.trans hone, eq_comm.trans ?_⟩
  rw [hzero, hone, Bool.not_eq_true]

end Store

/-! ### A settlement up to its update of the execution -/

namespace RecoverySnapshot

variable {store store' : Store} {executionId : ExecutionId} {snapshot : RecoverySnapshot}

/-- Up to the choice only the assessment and the attempts are written. -/
theorem beginSettlement_writes {clock : Clock} {outcome : Outcome} {reasonCode : ReasonCode}
    {release : Checked Unit} {executionState : ExecutionState}
    {response : ResponseState} {now : Nat}
    (hok : snapshot.beginSettlement clock outcome reasonCode release store =
      .ok (store', executionState, response, now)) :
    ∃ attempt replayed, snapshot.attempt = some attempt ∧
      store.accumulate snapshot.execution.executionId outcome.replayContribution = .ok replayed ∧
      outcome.disposition snapshot attempt = .ok (executionState, response) ∧
      store' = { replayed with attempts := store'.attempts } := by
  simp only [beginSettlement, do_eq_ok, Option.filter_eq_some_iff] at hok
  obtain ⟨_, -, attempt, ⟨hattempt, -⟩, s₁, hreplay, ⟨_, _⟩, hdisposition, _, -, s₂, hupdate, rfl,
    rfl, rfl, -⟩ := hok
  simp only [Store.updateAttempt, do_eq_ok] at hupdate
  obtain ⟨_, -, rfl⟩ := hupdate
  exact ⟨attempt, s₁, hattempt, hreplay, hdisposition, rfl⟩

end RecoverySnapshot

namespace Store

variable {store store' : Store} {executionId : ExecutionId}

/-- Joining an effect leaves an assessment that allows no retry. -/
theorem retryBasis_of_effects (hok : store.accumulate executionId ReplayFact.unknownEffects =
    .ok store') : store'.retryBasis executionId = false := by
  rw [← Bool.not_eq_true]
  intro hbasis
  obtain ⟨row, hrow, hallows⟩ := replay_of_retryBasis hbasis
  obtain ⟨observed, hobserved, hfacts⟩ := accumulate_records hok (by decide)
  rw [hrow, Option.some.injEq] at hobserved
  subst hobserved
  simp only [ReplayAssessment.allowsRetry, Bool.and_eq_true, beq_iff_eq] at hallows
  rw [hallows.1.2] at hfacts
  exact absurd hfacts (by decide)

theorem accumulate_none (hok : store.accumulate executionId ReplayFact.none = .ok store') :
    store' = store := by
  unfold accumulate at hok
  split at hok
  · rw [if_pos rfl] at hok
    exact (pure_eq_ok.mp hok).symm
  · rw [if_pos (.inl rfl)] at hok
    exact (pure_eq_ok.mp hok).symm

end Store

namespace RecoverySnapshot

variable {store store' : Store} {executionId : ExecutionId} {snapshot : RecoverySnapshot}
  {clock : Clock} {outcome : Outcome} {reasonCode : ReasonCode}
  {release : Checked Unit} {executionState : ExecutionState}
  {response : ResponseState} {now : Nat}

/-- An attempted execution is failed only where its update finds no authorized retry, and
deferred only where it finds one. -/
theorem choice_of_beginSettlement (hread : store.Reading executionId snapshot)
    (hok : snapshot.beginSettlement clock outcome reasonCode release store =
      .ok (store', executionState, response, now)) :
    store'.executions = store.executions ∧
      (∀ ordinal, executionState = .failed ordinal → store'.retryBasis executionId = false) ∧
      (∀ ordinal, executionState = .deferred ordinal → store'.retryBasis executionId = true) := by
  obtain ⟨attempt, replayed, -, hreplay, hdisposition, hstore⟩ := beginSettlement_writes hok
  rw [hread.executionId_eq] at hreplay
  have hexecutions : store'.executions = store.executions := by
    rw [hstore, (Store.accumulate_assessed hreplay).others]
  have hbasis : store'.retryBasis executionId = replayed.retryBasis executionId := by
    rw [hstore]
    rfl
  refine ⟨hexecutions, ?_⟩
  rw [hbasis]
  cases outcome with
  | succeeded =>
    simp only [Outcome.disposition, do_eq_ok] at hdisposition
    obtain ⟨_, -, _, -, rfl, -⟩ := hdisposition
    exact ⟨by simp, by simp⟩
  | attemptFailed =>
    rw [Store.accumulate_none hreplay, ← hread.retryAuthorized_eq]
    simp only [Outcome.disposition] at hdisposition
    split at hdisposition
    next hauthorized =>
      obtain ⟨rfl, -⟩ := Prod.mk.inj (pure_eq_ok.mp hdisposition)
      exact ⟨by simp, fun _ _ => hauthorized⟩
    next hrefused =>
      obtain ⟨rfl, -⟩ := Prod.mk.inj (pure_eq_ok.mp hdisposition)
      exact ⟨fun _ _ => Bool.not_eq_true _ ▸ hrefused, by simp⟩
  | unknownOutcome =>
    obtain ⟨rfl, -⟩ := Prod.mk.inj (pure_eq_ok.mp hdisposition)
    exact ⟨fun _ _ => Store.retryBasis_of_effects hreplay, by simp⟩

end RecoverySnapshot

/-- The records and the view authorize the same retries in every reachable state, and no
settlement chooses against what the view says when its execution is updated. -/
theorem retry_authorization_agrees (ops : List CoordinatorOp) (executionId : ExecutionId) :
    (∀ execution, (Coordinator.reached ops).store.executions.get? executionId = some execution →
      ∃ snapshot, (Coordinator.reached ops).store.get executionId = .ok snapshot ∧
        (snapshot.retryAuthorized = true ↔
          (executionId, 1) ∈ (Coordinator.reached ops).store.retryDispositionBasis) ∧
        (snapshot.retryAuthorized = false ↔
          (executionId, 0) ∈ (Coordinator.reached ops).store.retryDispositionBasis)) ∧
    ∀ (store : Store) (snapshot : RecoverySnapshot), store.get executionId = .ok snapshot →
      ∀ clock outcome reasonCode release decided executionState response now,
        snapshot.beginSettlement clock outcome reasonCode release store =
          .ok (decided, executionState, response, now) →
        (∀ ordinal, executionState = .failed (some ordinal) →
          (executionId, 0) ∈ decided.retryDispositionBasis ∧
            (executionId, 1) ∉ decided.retryDispositionBasis) ∧
        (∀ ordinal, executionState = .deferred (some ordinal) →
          (executionId, 1) ∈ decided.retryDispositionBasis ∧
            (executionId, 0) ∉ decided.retryDispositionBasis) := by
  constructor
  · intro execution hget
    obtain ⟨snapshot, hsnapshot⟩ := Coordinator.coherent_of_reached ops executionId (by rw [hget]; rfl)
    have hread := (Store.get_eq_ok.mp hsnapshot).1
    obtain ⟨hone, hzero⟩ := Store.retryDispositionBasis_eq hget
    refine ⟨snapshot, hsnapshot, ?_, ?_⟩
    · rw [hread.retryAuthorized_eq, hone]
    · rw [hread.retryAuthorized_eq, hzero]
  · intro store snapshot hsnapshot clock outcome reasonCode release decided executionState response
      now hchosen
    have hread := (Store.get_eq_ok.mp hsnapshot).1
    obtain ⟨hexecutions, hfailed, hdeferred⟩ :=
      RecoverySnapshot.choice_of_beginSettlement hread hchosen
    obtain ⟨hone, hzero⟩ := Store.retryDispositionBasis_eq (hexecutions ▸ hread.execution)
    rw [hone, hzero]
    constructor
    · intro ordinal hstate
      rw [hfailed _ hstate]
      exact ⟨rfl, Bool.false_ne_true⟩
    · intro ordinal hstate
      rw [hdeferred _ hstate]
      exact ⟨rfl, Bool.false_ne_true ∘ Eq.symm⟩

/-! ### Silent completion of wire work -/

/-- The update of the execution precedes those of its routes, so the guard sees them unsettled. -/
theorem RecoverySnapshot.settle_succeeded {store store' : Store} {executionId : ExecutionId}
    {snapshot : RecoverySnapshot} {clock : Clock} {reasonCode : ReasonCode}
    {release : Checked Unit} (hget : store.get executionId = .ok snapshot)
    (hwire : snapshot.execution.origin = .wire) :
    snapshot.settle clock .succeeded reasonCode release store ≠ .ok store' := by
  intro hok
  obtain ⟨hread, hconsistent⟩ := Store.get_eq_ok.mp hget
  rw [settle, bind_eq_ok] at hok
  obtain ⟨⟨decided, executionState, response, now⟩, hchosen, hok⟩ := hok
  obtain ⟨attempt, replayed, -, hreplay, hdisposition, hstore⟩ := beginSettlement_writes hchosen
  simp only [Outcome.disposition, do_eq_ok]
    at hdisposition
  obtain ⟨_, -, _, hretryable, rfl, -⟩ := hdisposition
  have hroutes := hconsistent.routes
  rw [RecoverySnapshot.validateRoutes, hwire] at hroutes
  obtain ⟨row, hrow⟩ := List.exists_mem_of_ne_nil _ (require_eq_ok.mp hroutes).2
  have howed : row ∈ decided.owed executionId := by
    rw [hread.obligations] at hrow
    have hobligations : decided.obligations = store.obligations := by
      rw [hstore, (Store.accumulate_assessed hreplay).others]
    rw [Store.owed, hobligations]
    exact (List.perm_insertionSort _ _).subset hrow
  have hstored : decided.executions.get? executionId = some snapshot.execution := by
    rw [hstore, (Store.accumulate_assessed hreplay).others]
    exact hread.execution
  simp only [Store.updateExecution, do_eq_ok, hread.executionId_eq, hstored, Option.all_some,
    Bool.not_true, Bool.false_or] at hok
  obtain ⟨_, ⟨_, hguard, -⟩, -⟩ := hok
  simp only [Store.executionGuard, Bool.and_eq_true, Bool.or_eq_true, bne_iff_ne, ne_eq, hwire,
    ExecutionState.kind, not_true_eq_false, false_or, List.all_eq_true] at hguard
  have hsuccessful := hguard.1.1.2.1.2 row howed
  have hretry := hretryable row hrow
  revert hsuccessful hretry
  cases row.lifecycle.kind <;> simp [ResponseKind.retryable, ResponseKind.successful]

/-- The wire execution under the fence is finished but for its settlement, and answers nobody. -/
structure Store.SilentlyDone (store : Store) (fence : OwnerFence) (snapshot : RecoverySnapshot)
    (attempt : AttemptRecord) : Prop where
  fenced : store.requireFence fence = .ok (snapshot, attempt)
  wire : snapshot.execution.origin = .wire
  active : snapshot.execution.lifecycle.kind = .active
  settling : attempt.lifecycle.kind = .live .settling
  backendDone : attempt.lifecycle.backendDone = true
  processDead : attempt.lifecycle.processDead = true
  unpublished : snapshot.publicationIntents = []
  retryable : ∀ row ∈ snapshot.obligations, row.lifecycle.kind.retryable = true

/-- No silent completion of wire work ever commits. -/
theorem silent_wire_completion_refused (ops : List CoordinatorOp) (fence : OwnerFence)
    (snapshot : RecoverySnapshot) (attempt : AttemptRecord)
    (hdone : (Coordinator.reached ops).store.SilentlyDone fence snapshot attempt)
    (clock : Clock) (pointerRevision : Nat) (reasonCode : ReasonCode)
    (failure : Option TurnFailure) (release : Checked Unit) :
    ∀ committed, Store.settleNonpublication clock fence pointerRevision .succeeded reasonCode
      failure release (Coordinator.reached ops).store ≠ .ok committed := by
  rintro ⟨store', result⟩ hok
  obtain ⟨hok, -⟩ := Store.writing_eq_ok.mp hok
  simp only [do_eq_ok, hdone.fenced, Except.ok.injEq, exists_eq_left'] at hok
  obtain ⟨_, -, ⟨store, prepared⟩, hprepared, _, hsettle, -⟩ := hok
  have hget := (Store.requireFence_eq_ok hdone.fenced).1
  obtain ⟨-, hget'⟩ : Writes (some fence.executionId) (fun _ => True) _ store ∧ _ :=
    Store.preparedSettlement_writes hget hprepared
  have hexecution : some prepared.execution = some snapshot.execution := by
    rw [← (Store.get_eq_ok.mp hget).1.execution, ← (Store.get_eq_ok.mp hget').1.execution]
    -- the replay a failure prepares is no part of the executions
    rcases failure with _ | _ | _
    · cases hprepared
      rfl
    all_goals
      simp only [Store.preparedSettlement, TurnFailure.prepareExecutionRetry, do_eq_ok] at hprepared
      obtain ⟨_, hprepare, ⟨_, _⟩, -, rfl, -⟩ := hprepared
      first
        | rw [(Store.authorizeIfUnobserved_assessed hprepare).others]
        | rw [(Store.revoke_assessed hprepare).others]
  refine RecoverySnapshot.settle_succeeded hget' ?_ hsettle
  rw [Option.some.inj hexecution]
  exact hdone.wire

/-- A decidable form of `SilentlyDone`. -/
theorem Store.silentlyDone_of_check {store : Store} {fence : OwnerFence}
    (hcheck : (store.requireFence fence).toOption.any (fun read => decide
      ((read.1.execution.origin = .wire ∧ read.1.execution.lifecycle.kind = .active ∧
        read.2.lifecycle.kind = .live .settling) ∧
      (read.2.lifecycle.backendDone = true ∧ read.2.lifecycle.processDead = true) ∧
      read.1.publicationIntents = [] ∧
      ∀ row ∈ read.1.obligations, row.lifecycle.kind.retryable = true)) = true) :
    ∃ snapshot attempt, store.SilentlyDone fence snapshot attempt := by
  obtain ⟨⟨snapshot, attempt⟩, hread, hchecks⟩ := (Option.any_eq_true _ _).mp hcheck
  obtain ⟨⟨hwire, hactive, hsettling⟩, ⟨hdone, hdead⟩, hintents, hretryable⟩ :=
    of_decide_eq_true hchecks
  exact ⟨snapshot, attempt, toOption_eq_some.mp hread, hwire, hactive, hsettling, hdone, hdead,
    hintents, hretryable⟩

def sampleSettling : List CoordinatorOp :=
  samplePending ++ [.base (.start (fun _ => 0) sampleStart),
    .base (.advance (fun _ => 0) ⟨"x", 1, "a", 1, 1, "t"⟩ (.live .promptAccepted) 1
      false false true none),
    .base (.advance (fun _ => 0) ⟨"x", 1, "a", 1, 2, "t"⟩ (.live .modelRunning) 1
      false false true none),
    .base (.advance (fun _ => 0) ⟨"x", 1, "a", 1, 3, "t"⟩ (.live .settling) 1
      true true true none)]

theorem silent_wire_completion_sample :
    (∃ snapshot attempt, (Coordinator.reached sampleSettling).store.SilentlyDone
      ⟨"x", 1, "a", 1, 4, "t"⟩ snapshot attempt) ∧
    Store.settleNonpublication (fun _ => 0) ⟨"x", 1, "a", 1, 4, "t"⟩ 1 .succeeded none none
      (.ok ()) (Coordinator.reached sampleSettling).store =
        .error (.refusedStatement "executions") := by
  constructor
  · apply Store.silentlyDone_of_check
    decide +kernel
  · apply eq_error_of_map (f := fun _ => ())
    decide +kernel

theorem silent_wire_completion_refused_sample :
    ∃ snapshot attempt, (Coordinator.reached sampleSettling).store.SilentlyDone
        ⟨"x", 1, "a", 1, 4, "t"⟩ snapshot attempt ∧
      ∀ committed, Store.settleNonpublication (fun _ => 7) ⟨"x", 1, "a", 1, 4, "t"⟩ 1 .succeeded
        none none (.ok ()) (Coordinator.reached sampleSettling).store ≠ .ok committed := by
  have hdone : ∃ snapshot attempt, (Coordinator.reached sampleSettling).store.SilentlyDone
      ⟨"x", 1, "a", 1, 4, "t"⟩ snapshot attempt := by
    apply Store.silentlyDone_of_check
    decide +kernel
  obtain ⟨snapshot, attempt, hdone⟩ := hdone
  exact ⟨snapshot, attempt, hdone, silent_wire_completion_refused sampleSettling _ snapshot attempt
    hdone _ _ _ _ _⟩

end AgentComms.Coordination
