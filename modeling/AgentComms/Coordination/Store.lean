import AgentComms.Coordination.Rows

/-!
# The coordinator store

The tables of one coordinator database, the statements that write them, and the
commit of a transaction. A statement refuses what the row's own constraints
refuse, what a trigger over other tables refuses, and a child without its parent
row; the foreign keys declared `DEFERRABLE INITIALLY DEFERRED` are checked when
the transaction commits.
-/

namespace AgentComms.Coordination

open Library

structure Store where
  participants : Table Participant
  ownerGenerations : Table OwnerGeneration
  currentExecutions : Table CurrentExecution
  executions : Table ExecutionRecord
  replayAssessments : Table ReplayAssessment
  attempts : Table AttemptRecord
  wakeClaims : Table WakeAssignment
  executionClaims : Table ExecutionAssignmentLink
  obligations : Table ResponseObligation
  publicationIntents : Table PublicationIntent
  publicationReceipts : Table PublicationEvidence
  appendDispatches : Table PublicationAppendDispatch
  recoveryAudits : Table RecoveryAudit

namespace Store

def empty : Store :=
  ⟨.empty, .empty, .empty, .empty, .empty, .empty, .empty, .empty, .empty, .empty, .empty,
    .empty, .empty⟩

/-! ### Views the triggers read -/

section

variable (store : Store)

def owed (executionId : ExecutionId) : List ResponseObligation :=
  store.obligations.values.filter fun row => row.executionId == executionId

/-- `WireOrigin.retry_sql`. -/
def routesRetryable (execution : ExecutionRecord) : Bool :=
  execution.origin != .wire ||
    (!(store.owed execution.executionId).isEmpty &&
      (store.owed execution.executionId).all fun row => row.lifecycle.kind.retryable)

/-- The view `retry_disposition_basis` holds `authorized = 1` for the execution. -/
def retryBasis (executionId : ExecutionId) : Bool :=
  (store.executions.get? executionId).any fun execution =>
    execution.lifecycle.hasRetryBudget execution.maxAttempts &&
      (store.replayAssessments.get? executionId).any ReplayAssessment.allowsRetry &&
      store.routesRetryable execution

/-- `RetryPartition`: an attempted failed execution is not authorized to retry. -/
def retryPartitioned (executionId : ExecutionId) : Bool :=
  !(store.retryBasis executionId && (store.executions.get? executionId).any fun execution =>
    execution.lifecycle.kind == .failed && execution.lifecycle.currentAttemptOrdinal.isSome)

def lastAttemptOrdinal (executionId : ExecutionId) : Nat :=
  ((store.attempts.values.filter fun row => row.executionId == executionId).map
    AttemptRecord.attemptOrdinal).max?.getD 0

/-! ### Statements -/

/-- SQLite's answer to a statement on one table. -/
def accepted {ρ κ : Type} [DecidableEq κ] [Record ρ κ] (table : String)
    (written : Option (Table ρ)) : Checked (Table ρ) :=
  orRefuse written (.refusedStatement table)

/-- The `AFTER` trigger of `RetryPartition` on a row that was written. -/
def afterWrite (table : String) (executionId : ExecutionId) (matched : Bool) (written : Store) :
    Checked Store := do
  require (matched = false ∨ written.retryPartitioned executionId) (.refusedStatement table)
  pure written

def insertParticipant (row : Participant) : Checked Store := do
  let participants ← accepted "participants" (store.participants.insert? row)
  pure { store with participants }

def commitParticipant (lookup : ThreadLookup) : Checked Store := do
  let participants ← accepted "participants" (store.participants.update? lookup
    (fun row => !row.committed) fun row => { row with committed := true })
  pure { store with participants }

def insertOwnerGeneration (row : OwnerGeneration) : Checked Store := do
  require (store.participants.get? row.ownerLookup).isSome (.refusedStatement "owner_generations")
  let ownerGenerations ← accepted "owner_generations" (store.ownerGenerations.insert? row)
  pure { store with ownerGenerations }

/-- `CounterAdvance`: no advance under a live attempt of the stored generation. -/
def advanceOwnerGeneration (lookup : ThreadLookup) (expected : Nat) : Checked Store := do
  require ((store.ownerGenerations.get? lookup).all fun row => row.generation != expected ||
    store.attempts.values.all fun attempt => !(attempt.ownerLookup == lookup &&
      attempt.ownerGeneration == expected && attempt.lifecycle.isLive))
    (.refusedStatement "owner_generations")
  let ownerGenerations ← accepted "owner_generations" (store.ownerGenerations.update? lookup
    (fun row => row.generation == expected) fun row => { row with generation := expected + 1 })
  pure { store with ownerGenerations }

def insertCurrentExecution (row : CurrentExecution) : Checked Store := do
  require ((store.ownerGenerations.get? row.ownerLookup).isSome ∧
    (store.participants.get? row.ownerLookup).isSome) (.refusedStatement "current_executions")
  let currentExecutions ← accepted "current_executions" (store.currentExecutions.insert? row)
  pure { store with currentExecutions }

def updateCurrentExecution (lookup : ThreadLookup)
    (selects : CurrentExecution → Bool) (pointed : Option (ExecutionId × Nat))
    (pointerRevision : Nat) : Checked Store := do
  let currentExecutions ← accepted "current_executions" (store.currentExecutions.update? lookup
    selects fun row => { row with executionId := pointed.map Prod.fst,
                                  attemptOrdinal := pointed.map Prod.snd, pointerRevision })
  pure { store with currentExecutions }

def insertExecution (row : ExecutionRecord) : Checked Store := do
  require (store.participants.get? row.ownerLookup).isSome (.refusedStatement "executions")
  let executions ← accepted "executions" (store.executions.insert? row)
  pure { store with executions }

def executionGuard (new : ExecutionRecord) : Bool :=
  ((new.lifecycle.kind != .deferred && new.lifecycle.kind != .failed) ||
    new.lifecycle.currentAttemptOrdinal.all fun ordinal =>
      (store.attempts.get? (new.executionId, ordinal)).any fun attempt =>
        attempt.ownerLookup == new.ownerLookup && attempt.lifecycle.isFailed) &&
  (new.origin != .wire ||
    (!(store.owed new.executionId).isEmpty &&
      (new.lifecycle.kind != .completed ||
        (store.owed new.executionId).all fun row => row.lifecycle.kind.successful) &&
      (new.lifecycle.kind != .deferred || new.lifecycle.currentAttemptOrdinal.isNone ||
        (store.owed new.executionId).all fun row => row.lifecycle.kind.retryable))) &&
  (new.lifecycle.kind != .failed ||
    store.publicationReceipts.values.all fun row => row.executionId != new.executionId) &&
  (new.lifecycle.kind != .failed || new.lifecycle.currentAttemptOrdinal.isNone ||
    !store.retryBasis new.executionId)

def updateExecution (executionId : ExecutionId)
    (selects : ExecutionRecord → Bool) (edit : ExecutionRecord → ExecutionRecord) :
    Checked Store := do
  require ((store.executions.get? executionId).all fun row =>
    !selects row || store.executionGuard (edit row)) (.refusedStatement "executions")
  let executions ← accepted "executions" (store.executions.update? executionId selects edit)
  pure { store with executions }

def insertAttempt (row : AttemptRecord) : Checked Store := do
  require ((store.executions.get? row.executionId).any fun execution =>
    execution.ownerLookup == row.ownerLookup && row.attemptOrdinal ≤ execution.maxAttempts &&
      (if row.attemptOrdinal = 1 then
        execution.lifecycle.kind == .pending || execution.lifecycle == .active 1
      else execution.lifecycle.kind == .deferred ||
        execution.lifecycle == .active row.attemptOrdinal) &&
      row.attemptOrdinal == 1 + store.lastAttemptOrdinal row.executionId)
    (.refusedStatement "attempts")
  require ((store.ownerGenerations.get? row.ownerLookup).any fun owner =>
    owner.generation == row.ownerGeneration) (.refusedStatement "attempts")
  require (row.lifecycle.kind = .live .promptStarting ∧ row.revision = 1 ∧
    row.lifecycle.backendDone = false ∧ row.lifecycle.processDead = false)
    (.refusedStatement "attempts")
  -- A retry needs its authorization, an idle owner and a finally failed predecessor.
  require (row.attemptOrdinal ≤ 1 ∨ (store.retryBasis row.executionId ∧
    (store.currentExecutions.get? row.ownerLookup).all fun pointer =>
      pointer.executionId.isNone)) (.refusedStatement "attempts")
  require (row.attemptOrdinal ≤ 1 ∨
    (store.attempts.get? (row.executionId, row.attemptOrdinal - 1)).any fun previous =>
      previous.lifecycle.permitsRetry && previous.lifecycle.backendDone &&
        previous.lifecycle.processDead && previous.ownerGeneration < row.ownerGeneration &&
        row.ownerTokenDigest != previous.ownerTokenDigest) (.refusedStatement "attempts")
  require ((store.participants.get? row.ownerLookup).isSome ∧
    store.attempts.values.all fun other => other.ownerTokenDigest != row.ownerTokenDigest)
    (.refusedStatement "attempts")
  let attempts ← accepted "attempts" (store.attempts.insert? row)
  pure { store with attempts }

def updateAttempt (executionId : ExecutionId) (ordinal : Nat)
    (selects : AttemptRecord → Bool) (edit : AttemptRecord → AttemptRecord) : Checked Store := do
  let attempts ← accepted "attempts"
    (store.attempts.update? (executionId, ordinal) selects edit)
  pure { store with attempts }

def insertWakeClaim (row : WakeAssignment) : Checked Store := do
  require ((store.participants.get? row.recipientLookup).isSome ∧
    row.lifecycle.executionId.all (fun id => (store.executions.get? id).isSome) ∧
    store.wakeClaims.values.all fun other =>
      !(other.recipientLookup == row.recipientLookup && other.wireSeq == row.wireSeq))
    (.refusedStatement "wake_claims")
  let wakeClaims ← accepted "wake_claims" (store.wakeClaims.insert? row)
  pure { store with wakeClaims }

def updateWakeClaim (assignmentId : AssignmentId)
    (selects : WakeAssignment → Bool) (lifecycle : AssignmentState) (revision : Nat)
    (updatedAt : Time) : Checked Store := do
  require (lifecycle.executionId.all fun id => (store.executions.get? id).isSome)
    (.refusedStatement "wake_claims")
  let wakeClaims ← accepted "wake_claims" (store.wakeClaims.update? assignmentId selects
    fun row => { row with lifecycle, revision, updatedAt })
  pure { store with wakeClaims }

def insertExecutionClaim (row : ExecutionAssignmentLink) : Checked Store := do
  require ((store.executions.get? row.executionId).any fun execution =>
    execution.lifecycle.kind.unstarted &&
      row.ordinal == (store.executionClaims.values.filter fun link =>
        link.executionId == row.executionId).length &&
      (store.wakeClaims.get? row.assignmentId).any fun claim =>
        claim.lifecycle.executionId == some row.executionId &&
          claim.lifecycle.exactTarget.isSome &&
          claim.recipientLookup == execution.ownerLookup) (.refusedStatement "execution_claims")
  require (store.executionClaims.values.all fun link => link.assignmentId != row.assignmentId)
    (.refusedStatement "execution_claims")
  let executionClaims ← accepted "execution_claims" (store.executionClaims.insert? row)
  pure { store with executionClaims }

def insertObligation (row : ResponseObligation) : Checked Store := do
  require ((store.executions.get? row.executionId).any fun execution =>
    execution.origin == .wire && store.wakeClaims.values.any fun claim =>
      claim.lifecycle.executionId == some row.executionId &&
        claim.lifecycle.exactTarget == some row.exactTarget) (.refusedStatement "obligations")
  require (row.lifecycle.kind.requiresIntent = false) (.refusedStatement "obligations")
  let obligations ← accepted "obligations" (store.obligations.insert? row)
  afterWrite "obligations" row.executionId true { store with obligations }

def obligationGuard (new : ResponseObligation) : Bool :=
  (!new.lifecycle.kind.requiresIntent ||
    ((store.publicationIntents.get? (new.executionId, new.exactTarget)).isSome &&
      match new.lifecycle with
      | .published messageId seq =>
        (store.publicationReceipts.get? (new.executionId, new.exactTarget)).any fun receipt =>
          receipt.messageId == messageId && receipt.seq == seq
      | _ => true)) &&
  (new.lifecycle.kind == .published ||
    (store.publicationReceipts.get? (new.executionId, new.exactTarget)).isNone) &&
  (new.lifecycle.kind.allowsIntent ||
    (store.publicationIntents.get? (new.executionId, new.exactTarget)).isNone)

def updateObligation (executionId : ExecutionId) (exactTarget : String)
    (selects : ResponseObligation → Bool) (edit : ResponseObligation → ResponseObligation) :
    Checked Store := do
  require ((store.obligations.get? (executionId, exactTarget)).all fun row =>
    !selects row || store.obligationGuard (edit row)) (.refusedStatement "obligations")
  let obligations ← accepted "obligations"
    (store.obligations.update? (executionId, exactTarget) selects edit)
  afterWrite "obligations" executionId
    ((store.obligations.get? (executionId, exactTarget)).any selects) { store with obligations }

def insertReplayAssessment (row : ReplayAssessment) : Checked Store := do
  require (store.executions.get? row.executionId).isSome (.refusedStatement "replay_assessments")
  let replayAssessments ← accepted "replay_assessments" (store.replayAssessments.insert? row)
  afterWrite "replay_assessments" row.executionId true { store with replayAssessments }

def updateReplayAssessment (executionId : ExecutionId)
    (edit : ReplayAssessment → ReplayAssessment) : Checked Store := do
  let replayAssessments ← accepted "replay_assessments"
    (store.replayAssessments.update? executionId (fun _ => true) edit)
  afterWrite "replay_assessments" executionId (store.replayAssessments.get? executionId).isSome
    { store with replayAssessments }

def insertPublicationIntent (row : PublicationIntent) : Checked Store := do
  require ((store.obligations.get? (row.executionId, row.exactTarget)).any fun obligation =>
    obligation.lifecycle.kind == .pending) (.refusedStatement "publication_intents")
  require ((store.executions.get? row.executionId).isSome ∧
    store.publicationIntents.values.all fun other =>
      other.publicationKey != row.publicationKey &&
        other.expectedMessageId != row.expectedMessageId)
    (.refusedStatement "publication_intents")
  let publicationIntents ← accepted "publication_intents" (store.publicationIntents.insert? row)
  pure { store with publicationIntents }

def insertPublicationReceipt (row : PublicationEvidence) : Checked Store := do
  require ((store.executions.get? row.executionId).all fun execution =>
    execution.lifecycle.kind != .failed) (.refusedStatement "publication_receipts")
  require ((store.publicationIntents.get? (row.executionId, row.exactTarget)).any fun intent =>
    row.messageId == intent.expectedMessageId) (.refusedStatement "publication_receipts")
  require ((store.obligations.get? (row.executionId, row.exactTarget)).any fun obligation =>
    obligation.lifecycle.kind == .publishing) (.refusedStatement "publication_receipts")
  require (store.publicationReceipts.values.all fun other =>
    other.seq != row.seq && other.messageId != row.messageId)
    (.refusedStatement "publication_receipts")
  let publicationReceipts ← accepted "publication_receipts"
    (store.publicationReceipts.insert? row)
  pure { store with publicationReceipts }

def insertAppendDispatch (row : PublicationAppendDispatch) : Checked Store := do
  require (store.publicationIntents.get? (row.executionId, row.exactTarget)).isSome
    (.refusedStatement "publication_append_dispatches")
  let appendDispatches ← accepted "publication_append_dispatches"
    (store.appendDispatches.insert? row)
  pure { store with appendDispatches }

/-- The next `AUTOINCREMENT` value. -/
def nextAuditId : Nat :=
  (store.recoveryAudits.values.map RecoveryAudit.auditId).max?.getD 0 + 1

def insertRecoveryAudit (row : RecoveryAudit) : Checked Store := do
  require ((store.executions.get? row.executionId).isSome ∧
    (store.attempts.get? (row.executionId, row.attempt)).isSome)
    (.refusedStatement "recovery_audit")
  let recoveryAudits ← accepted "recovery_audit" (store.recoveryAudits.insert? row)
  pure { store with recoveryAudits }

/-! ### Deferred foreign keys -/

/-- A pointer names an active execution of its owner and that execution's live
current attempt. -/
def pointerReferences (pointer : CurrentExecution) : Bool :=
  match pointer.executionId, pointer.attemptOrdinal with
  | some executionId, some ordinal =>
    ((store.executions.get? executionId).any fun execution =>
      execution.lifecycle == .active ordinal &&
        execution.ownerLookup == pointer.ownerLookup) &&
    (store.attempts.get? (executionId, ordinal)).any fun attempt =>
      attempt.ownerLookup == pointer.ownerLookup && attempt.lifecycle.isLive
  | _, _ => true

/-- An active execution has its live attempt and its owner's pointer, a completed
one its succeeded attempt, a wire one its first claim, and a deferral after an
attempt its authorized replay. -/
def executionReferences (execution : ExecutionRecord) : Bool :=
  (match execution.lifecycle with
    | .active ordinal =>
      ((store.attempts.get? (execution.executionId, ordinal)).any fun attempt =>
        attempt.ownerLookup == execution.ownerLookup && attempt.lifecycle.isLive) &&
      (store.currentExecutions.get? execution.ownerLookup).any fun pointer =>
        pointer.executionId == some execution.executionId &&
          pointer.attemptOrdinal == some ordinal
    | .completed ordinal =>
      (store.attempts.get? (execution.executionId, ordinal)).any fun attempt =>
        attempt.ownerLookup == execution.ownerLookup &&
          attempt.lifecycle == .terminal .succeeded
    | .deferred (some _) =>
      (store.replayAssessments.get? execution.executionId).any ReplayAssessment.allowsRetry
    | _ => true) &&
  (execution.origin != .wire || (store.executionClaims.get? (execution.executionId, 0)).isSome)

/-- A live attempt is the current one of an active execution of its owner. -/
def attemptReferences (attempt : AttemptRecord) : Bool :=
  !attempt.lifecycle.isLive || (store.executions.get? attempt.executionId).any fun execution =>
    execution.lifecycle == .active attempt.attemptOrdinal &&
      execution.ownerLookup == attempt.ownerLookup

/-- A bound claim has its obligation and its link, and the kind of its execution. -/
def claimReferences (claim : WakeAssignment) : Bool :=
  claim.lifecycle.engagement?.all fun engagement =>
    (store.obligations.get? (engagement.executionId, engagement.exactTarget)).isSome &&
      (store.executionClaims.values.any fun link =>
        link.executionId == engagement.executionId && link.assignmentId == claim.assignmentId) &&
      (store.executions.get? engagement.executionId).any fun execution =>
        claim.lifecycle.kind == execution.lifecycle.kind.assignmentState

def intentReferences (intent : PublicationIntent) : Bool :=
  (store.obligations.get? (intent.executionId, intent.exactTarget)).any fun obligation =>
    obligation.lifecycle.kind.allowsIntent

def receiptReferences (receipt : PublicationEvidence) : Bool :=
  (store.obligations.get? (receipt.executionId, receipt.exactTarget)).any fun obligation =>
    obligation.lifecycle.kind == .published

def ForeignKeys : Prop :=
  (∀ pointer ∈ store.currentExecutions.values, store.pointerReferences pointer) ∧
  (∀ execution ∈ store.executions.values, store.executionReferences execution) ∧
  (∀ attempt ∈ store.attempts.values, store.attemptReferences attempt) ∧
  (∀ claim ∈ store.wakeClaims.values, store.claimReferences claim) ∧
  (∀ intent ∈ store.publicationIntents.values, store.intentReferences intent) ∧
  ∀ receipt ∈ store.publicationReceipts.values, store.receiptReferences receipt

end

instance (store : Store) : Decidable store.ForeignKeys := by
  unfold ForeignKeys
  infer_instance

/-- One write transaction: its body runs to the end and commits, or nothing does. -/
def writing {α : Type} (body : Store → Checked (Store × α)) (store : Store) :
    Checked (Store × α) := do
  let written ← body store
  require written.1.ForeignKeys (.refusedStatement "FOREIGN KEY")
  pure written

end Store

end AgentComms.Coordination
