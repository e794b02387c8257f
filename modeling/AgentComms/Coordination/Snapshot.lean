import AgentComms.Coordination.Store

/-!
# Recovery snapshots

`RecoveryReader.get` reads every record of one execution and refuses records that
disagree. A snapshot then settles its attempt: `settle` without a publication,
`finishPublications` once every reply is on the bus.
-/

namespace AgentComms.Coordination

open Library

/-! ### Clock -/

/-- The writes of one transaction that read the clock. -/
inductive Stamp where
  | created | observed | settled | attempt | execution | acknowledged | dispatched
  | obligation (exactTarget : String)
  | assignment (assignmentId : AssignmentId)
deriving DecidableEq

abbrev Clock := Stamp → Time

def Clock.now (clock : Clock) (stamp : Stamp) (floor : Time) : Time := max (clock stamp) floor

/-! ### Replay assessments -/

namespace Store

/-- Join an observation; nothing if it is known. -/
def accumulate (store : Store) (executionId : ExecutionId) (observed : ReplayFacts) :
    Checked Store :=
  match store.replayAssessments.get? executionId with
  | none =>
    if observed = ReplayFact.none then pure store
    else store.insertReplayAssessment ⟨executionId, observed, false, true, 1⟩
  | some row =>
    if observed = ReplayFact.none ∨ (row.facts ||| observed = row.facts ∧
        row.replaySafe = false ∧ row.sideEffectsPossible = true) then pure store
    else store.updateReplayAssessment executionId fun row =>
      { row with facts := row.facts ||| observed, replaySafe := false,
                 sideEffectsPossible := true, revision := row.revision + 1 }

def authorizeIfUnobserved (store : Store) (executionId : ExecutionId) : Checked Store :=
  match store.replayAssessments.get? executionId with
  | none => store.insertReplayAssessment ⟨executionId, ReplayFact.none, true, false, 1⟩
  | some _ => pure store

def revoke (store : Store) (executionId : ExecutionId) : Checked Store :=
  match store.replayAssessments.get? executionId with
  | some row =>
    if row.replaySafe then store.updateReplayAssessment executionId fun row =>
      { row with replaySafe := false, revision := row.revision + 1 }
    else pure store
  | none => pure store

end Store

/-! ### Participants -/

structure ParticipantSnapshot where
  lookup : ThreadLookup
  committed : Bool
  ownerIdentity : OwnerGeneration
  pointer : CurrentExecution

def Store.participant (store : Store) (lookup : ThreadLookup) : Checked ParticipantSnapshot := do
  let person ← orRefuse (store.participants.get? lookup) (.participantNotRegistered lookup)
  let generation ← orRefuse (store.ownerGenerations.get? lookup)
    (.participantNotRegistered lookup)
  let pointer ← orRefuse (store.currentExecutions.get? lookup) (.participantNotRegistered lookup)
  pure ⟨lookup, person.committed, generation, pointer⟩

/-! ### Snapshots -/

@[ext] structure RecoverySnapshot where
  execution : ExecutionRecord
  attempt : Option AttemptRecord
  assignments : List WakeAssignment
  links : List ExecutionAssignmentLink
  replay : Option ReplayAssessment
  obligations : List ResponseObligation
  publicationIntents : List PublicationIntent
  publicationEvidence : List PublicationEvidence
  lastRecovery : Option RecoveryAudit
  currentExecutionId : Option ExecutionId
  currentAttemptOrdinal : Option Nat
  pointerRevision : Nat
  isCurrent : Bool

namespace RecoverySnapshot

variable (snapshot : RecoverySnapshot)

/-- `ExecutionRecord.retry_authorized` of this snapshot's records. -/
def retryAuthorized : Bool :=
  snapshot.execution.lifecycle.hasRetryBudget snapshot.execution.maxAttempts &&
    snapshot.replay.any ReplayAssessment.allowsRetry &&
    (snapshot.execution.origin != .wire ||
      (!snapshot.obligations.isEmpty &&
        snapshot.obligations.all fun row => row.lifecycle.kind.retryable))

def intentFor (exactTarget : String) : Option PublicationIntent :=
  snapshot.publicationIntents.find? fun row => row.exactTarget == exactTarget

def evidenceFor (exactTarget : String) : Option PublicationEvidence :=
  snapshot.publicationEvidence.find? fun row => row.exactTarget == exactTarget

def obligationFor (exactTarget : String) : Option ResponseObligation :=
  snapshot.obligations.find? fun row => row.exactTarget == exactTarget

def validateMembership : Checked Unit := do
  let id := snapshot.execution.executionId
  require ((∀ row ∈ snapshot.replay, row.executionId = id) ∧
      (∀ row ∈ snapshot.obligations, row.executionId = id) ∧
      (∀ row ∈ snapshot.publicationIntents, row.executionId = id) ∧
      (∀ row ∈ snapshot.publicationEvidence, row.executionId = id) ∧
      (∀ row ∈ snapshot.lastRecovery, row.executionId = id) ∧
      ∀ row ∈ snapshot.assignments, row.lifecycle.executionId = some id)
    (.integrityViolation "snapshot records belong to another execution")
  require (snapshot.links.map ExecutionAssignmentLink.assignmentId =
        snapshot.assignments.map WakeAssignment.assignmentId ∧
      snapshot.links.map ExecutionAssignmentLink.ordinal =
        List.range snapshot.assignments.length ∧
      ∀ link ∈ snapshot.links, link.executionId = id)
    (.integrityViolation "snapshot execution-claim links disagree with ordered claims")
  require ((snapshot.assignments.map WakeAssignment.assignmentId).Nodup ∧
      ∀ row ∈ snapshot.assignments, row.recipientLookup = snapshot.execution.ownerLookup)
    (.integrityViolation "snapshot claims have duplicate IDs or wrong owner")
  require (∀ row ∈ snapshot.assignments,
      row.lifecycle.kind = snapshot.execution.lifecycle.kind.assignmentState)
    (.integrityViolation "snapshot claims disagree with execution disposition")

def validateAttemptIdentity : Checked Unit := do
  let execution := snapshot.execution
  require (execution.lifecycle.currentAttemptOrdinal.isNone = snapshot.attempt.isNone)
    (.integrityViolation "snapshot attempt does not match execution reference")
  require (∀ attempt ∈ snapshot.attempt, attempt.executionId = execution.executionId ∧
      some attempt.attemptOrdinal = execution.lifecycle.currentAttemptOrdinal ∧
      attempt.ownerLookup = execution.ownerLookup)
    (.integrityViolation "snapshot attempt identity/owner mismatch")
  require (∀ attempt ∈ snapshot.attempt, execution.lifecycle.acceptsAttempt attempt.lifecycle)
    (.integrityViolation "snapshot status/attempt phase mismatch")

def validateCurrentPointer : Checked Unit := do
  require (snapshot.currentExecutionId.isSome = snapshot.currentAttemptOrdinal.isSome)
    (.integrityViolation "snapshot pointer tuple is incomplete")
  require (snapshot.isCurrent = true ↔
      snapshot.currentExecutionId = some snapshot.execution.executionId ∧
      snapshot.currentAttemptOrdinal = snapshot.execution.lifecycle.currentAttemptOrdinal ∧
      snapshot.execution.lifecycle.kind = .active ∧
      snapshot.attempt.any (·.lifecycle.isLive))
    (.integrityViolation "snapshot current pointer is inconsistent")

def routes : List (Option String) :=
  snapshot.assignments.map fun row => row.lifecycle.exactTarget

def validateRoutes : Checked Unit :=
  match snapshot.execution.origin with
  | .wire => require (snapshot.assignments ≠ [] ∧ snapshot.obligations ≠ [])
      (.integrityViolation "wire snapshots require original obligations")
  | _ => require (snapshot.assignments = [] ∧ snapshot.obligations = [])
      (.integrityViolation "claimless snapshots cannot have claims or obligations")

def validateResponseRoute : Checked Unit := do
  snapshot.validateRoutes
  let targets := snapshot.obligations.map ResponseObligation.exactTarget
  require (targets.Nodup ∧ (∀ target ∈ targets, some target ∈ snapshot.routes) ∧
      ∀ route ∈ snapshot.routes, ∃ target ∈ targets, route = some target)
    (.integrityViolation "response obligations differ from original claim routes")
  require ((snapshot.publicationIntents.map PublicationIntent.exactTarget).Nodup ∧
      ∀ row ∈ snapshot.publicationIntents, some row.exactTarget ∈ snapshot.routes)
    (.integrityViolation "publication routes differ from original obligations")
  require ((snapshot.publicationEvidence.map PublicationEvidence.exactTarget).Nodup ∧
      ∀ row ∈ snapshot.publicationEvidence, some row.exactTarget ∈ snapshot.routes)
    (.integrityViolation "publication routes differ from original obligations")

end RecoverySnapshot

def ResponseState.validateAcknowledgement (state : ResponseState)
    (acknowledgement : Option PublicationEvidence) : Checked Unit :=
  match state with
  | .published messageId seq => do
      require acknowledgement.isSome
        (.integrityViolation "publication acknowledgement exists iff published")
      require (acknowledgement.all fun row => row.messageId == messageId && row.seq == seq)
        (.integrityViolation "obligation acknowledgement does not match publication")
  | _ => require (acknowledgement = none)
      (.integrityViolation "publication acknowledgement exists iff published")

def ResponseState.validatePublication (state : ResponseState) (intent : Option PublicationIntent)
    (acknowledgement : Option PublicationEvidence) : Checked Unit := do
  require (intent = none ∨ state.kind.allowsIntent)
    (.integrityViolation "publication intent is invalid for obligation state")
  require (intent.isSome ∨ state.kind.requiresIntent = false)
    (.integrityViolation "publishing and published obligations require intent")
  state.validateAcknowledgement acknowledgement
  require (acknowledgement.all fun row => intent.any (row.messageId == ·.expectedMessageId))
    (.integrityViolation "acknowledgement envelope does not match frozen intent")

namespace RecoverySnapshot

variable (snapshot : RecoverySnapshot)

def validatePublicationReceipt : Checked Unit :=
  snapshot.obligations.forM fun obligation =>
    obligation.lifecycle.validatePublication (snapshot.intentFor obligation.exactTarget)
      (snapshot.evidenceFor obligation.exactTarget)

/-- `validate_snapshot` of the execution's state. -/
def validateLifecycle : Checked Unit :=
  match snapshot.execution.lifecycle with
  | .queued | .pending => pure ()
  | .active _ => require snapshot.isCurrent
      (.integrityViolation "active snapshot must carry exact owner pointer")
  | .completed _ => require (∀ row ∈ snapshot.obligations, row.lifecycle.kind.successful)
      (.integrityViolation "completed wire execution requires terminal obligation")
  | .deferred _ => require (snapshot.attempt = none ∨ snapshot.retryAuthorized)
      (.integrityViolation "post-attempt deferral requires authorized retry")
  | .failed _ => do
      require (snapshot.publicationEvidence = [])
        (.integrityViolation "failed execution cannot erase a publication acknowledgement")
      require (snapshot.attempt = none ∨ snapshot.retryAuthorized = false)
        (.integrityViolation "authorized retry cannot settle failed")

def validate : Checked Unit := do
  snapshot.validateMembership
  snapshot.validateAttemptIdentity
  snapshot.validateCurrentPointer
  snapshot.validateResponseRoute
  snapshot.validatePublicationReceipt
  snapshot.validateLifecycle

def requireAttempt : Checked AttemptRecord :=
  orRefuse snapshot.attempt (.staleFence "execution has no authorized attempt")

def requireCurrentAttempt : Checked AttemptRecord := do
  require snapshot.isCurrent (.staleFence "attempt fence is not current")
  snapshot.requireAttempt

def canRetry : Bool :=
  match snapshot.execution.lifecycle with
  | .deferred (some _) => snapshot.attempt.any fun attempt =>
    snapshot.retryAuthorized && attempt.lifecycle.permitsRetry && !snapshot.isCurrent
  | _ => false

end RecoverySnapshot

namespace Store

variable (store : Store)

def linksOf (executionId : ExecutionId) : List ExecutionAssignmentLink :=
  store.executionClaims.selectBy ExecutionAssignmentLink.ordinal (·.executionId == executionId)

def obligationsOf (executionId : ExecutionId) : List ResponseObligation :=
  store.obligations.selectBy ResponseObligation.exactTarget (·.executionId == executionId)

def intentsOf (executionId : ExecutionId) : List PublicationIntent :=
  store.publicationIntents.selectBy PublicationIntent.exactTarget (·.executionId == executionId)

def evidenceOf (executionId : ExecutionId) : List PublicationEvidence :=
  store.publicationReceipts.selectBy PublicationEvidence.exactTarget (·.executionId == executionId)

def auditsOf (executionId : ExecutionId) : List RecoveryAudit :=
  store.recoveryAudits.selectBy RecoveryAudit.auditId (·.executionId == executionId)

def assignment (assignmentId : AssignmentId) : Checked WakeAssignment :=
  orRefuse (store.wakeClaims.get? assignmentId) (.identityConflict "unknown claim")

def read (executionId : ExecutionId) : Checked RecoverySnapshot := do
  let execution ← orRefuse (store.executions.get? executionId)
    (.identityConflict "unknown execution")
  let assignments ← (store.linksOf executionId).mapM fun link =>
    store.assignment link.assignmentId
  let owner ← store.participant execution.ownerLookup
  pure { execution
         attempt := execution.lifecycle.currentAttemptOrdinal.bind fun ordinal =>
           store.attempts.get? (executionId, ordinal)
         assignments
         links := store.linksOf executionId
         replay := store.replayAssessments.get? executionId
         obligations := store.obligationsOf executionId
         publicationIntents := store.intentsOf executionId
         publicationEvidence := store.evidenceOf executionId
         lastRecovery := (store.auditsOf executionId).getLast?
         currentExecutionId := owner.pointer.executionId
         currentAttemptOrdinal := owner.pointer.attemptOrdinal
         pointerRevision := owner.pointer.pointerRevision
         isCurrent := owner.pointer.executionId == some executionId }

def get (executionId : ExecutionId) : Checked RecoverySnapshot := do
  let snapshot ← store.read executionId
  snapshot.validate
  pure snapshot

end Store

/-! ### Settlement -/

def Outcome.disposition (outcome : Outcome) (snapshot : RecoverySnapshot)
    (attempt : AttemptRecord) : Checked (ExecutionState × ResponseState) :=
  let ordinal := attempt.attemptOrdinal
  match outcome with
  | .succeeded => do
      require (attempt.lifecycle.kind = .live .settling)
        (.identityConflict "silent completion requires settling phase")
      require (∀ row ∈ snapshot.obligations, row.lifecycle.kind.retryable)
        (.identityConflict "wire completion requires nonpublication obligation")
      pure (.completed ordinal, .silent)
  | .attemptFailed =>
    if snapshot.retryAuthorized then pure (.deferred (some ordinal), .deferred)
    else pure (.failed (some ordinal), .failed)
  | .unknownOutcome => pure (.failed (some ordinal), .failed)

namespace RecoverySnapshot

variable (snapshot : RecoverySnapshot)

def updateObligations (clock : Clock) (response : ResponseState)
    (reasonCode : ReasonCode) (store : Store) : Checked Store :=
  snapshot.obligations.foldlM (fun store obligation =>
    store.updateObligation snapshot.execution.executionId obligation.exactTarget (fun _ => true)
      fun row => { row with
        lifecycle := response
        revision := obligation.revision + 1
        updatedAt := clock.now (.obligation obligation.exactTarget) obligation.updatedAt
        reasonCode }) store

/-- Move every claim the snapshot holds to one kind, under its policy and binding. -/
def updateAssignments (clock : Clock) (kind : AssignmentKind)
    (selects : WakeAssignment → WakeAssignment → Bool) (store : Store) : Checked Store :=
  snapshot.assignments.foldlM (fun store assignment => do
    let lifecycle ← kind.build assignment.lifecycle.mode assignment.lifecycle.executionId
      assignment.lifecycle.exactTarget
    store.updateWakeClaim assignment.assignmentId (selects assignment) lifecycle
      (assignment.revision + 1)
      (clock.now (.assignment assignment.assignmentId) assignment.updatedAt)) store

/-- The statements of `settle` before its update of the execution, with what it chose.
`release` is what releasing the attempt's resources answers. -/
def beginSettlement (clock : Clock) (outcome : Outcome)
    (reasonCode : ReasonCode) (release : Checked Unit) (store : Store) :
    Checked (Store × ExecutionState × ResponseState × Nat) := do
  let execution := snapshot.execution
  require (snapshot.publicationIntents = [])
    (.publicationUncertain "publication requires bus-keyed acknowledgement resolution")
  let attempt ← orRefuse (snapshot.attempt.filter fun attempt =>
      snapshot.isCurrent && attempt.lifecycle.backendDone && attempt.lifecycle.processDead)
    (.recoveryBlocked "settlement requires exact final done/death evidence")
  let store ← store.accumulate execution.executionId outcome.replayContribution
  let (executionState, response) ← outcome.disposition snapshot attempt
  release
  let now := clock.now .settled (max execution.updatedAt attempt.updatedAt)
  let store ← store.updateAttempt execution.executionId attempt.attemptOrdinal (fun _ => true)
    fun row => { row with lifecycle := .terminal outcome, revision := attempt.revision + 1,
                          updatedAt := now, reasonCode }
  pure (store, executionState, response, now)

/-- End the final current attempt without a publication. -/
def settle (clock : Clock) (outcome : Outcome)
    (reasonCode : ReasonCode) (release : Checked Unit) (store : Store) : Checked Store := do
  let execution := snapshot.execution
  let (store, executionState, response, now) ←
    snapshot.beginSettlement clock outcome reasonCode release store
  let store ← store.updateExecution execution.executionId (fun _ => true)
    fun row => { row with lifecycle := executionState, revision := execution.revision + 1,
                          updatedAt := now, reasonCode }
  let store ← snapshot.updateObligations clock response reasonCode store
  let store ← snapshot.updateAssignments clock executionState.kind.assignmentState
    (fun _ _ => true) store
  store.updateCurrentExecution execution.ownerLookup (fun _ => true) none
    (snapshot.pointerRevision + 1)

def requireWireResponses : Checked (List ResponseObligation) := do
  require (snapshot.assignments ≠ [] ∧ snapshot.obligations ≠ [])
    (.identityConflict "wire response requires original claims and obligations")
  pure snapshot.obligations

def completeAttempt (clock : Clock) (release : Checked Unit) (store : Store) : Checked Store := do
  let execution := snapshot.execution
  let attempt ← snapshot.requireCurrentAttempt
  release
  let store ← store.updateAttempt execution.executionId attempt.attemptOrdinal
    (·.revision == attempt.revision) fun row =>
      { row with lifecycle := .terminal .succeeded, revision := attempt.revision + 1,
                 updatedAt := clock.now .attempt attempt.updatedAt }
  let store ← store.updateExecution execution.executionId (·.revision == execution.revision)
    fun row => { row with lifecycle := .completed attempt.attemptOrdinal,
                          revision := execution.revision + 1,
                          updatedAt := clock.now .execution execution.updatedAt }
  let store ← snapshot.updateAssignments clock .completed
    (fun assignment row => row.revision == assignment.revision) store
  store.updateCurrentExecution execution.ownerLookup (fun row =>
      row.pointerRevision == snapshot.pointerRevision &&
        row.executionId == some execution.executionId) none (snapshot.pointerRevision + 1)

/-- Complete the attempt when every original route settled. -/
def finishPublications (clock : Clock) (release : Checked Unit) (store : Store) :
    Checked Store := do
  let owed ← snapshot.requireWireResponses
  if owed.all fun row => row.lifecycle.kind == .published then
    snapshot.completeAttempt clock release store
  else pure store

end RecoverySnapshot

end AgentComms.Coordination
