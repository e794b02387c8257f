import AgentComms.Coordination.Snapshot

/-!
# Coordinator operations

Each operation is one write transaction over the store. What a caller's
registry, bus or process observation decides comes in as an argument: a verdict
that may refuse, or the data it supplies.
-/

namespace AgentComms.Coordination

open Library

/-- A write took effect, or an earlier one already had. -/
inductive Applied (α : Type) where
  | applied (value : α)
  | alreadyApplied (value : α)

/-! ### Participants -/

namespace Store

def register (lookup : ThreadLookup) (committed : Bool) :
    Store → Checked (Store × Applied ParticipantSnapshot) :=
  writing fun store =>
    match store.participants.get? lookup with
    | some _ => do
        let snapshot ← store.participant lookup
        pure (store, .alreadyApplied snapshot)
    | none => do
        let store ← store.insertParticipant ⟨lookup, committed⟩
        let store ← store.insertOwnerGeneration ⟨lookup, 1⟩
        let store ← store.insertCurrentExecution ⟨lookup, none, none, 0⟩
        let snapshot ← store.participant lookup
        pure (store, .applied snapshot)

def commitUncommitted (store : Store) (person : ParticipantSnapshot) :
    Checked (Store × Applied ParticipantSnapshot) :=
  if person.committed then pure (store, .alreadyApplied person)
  else do
    let store ← store.commitParticipant person.lookup
    let snapshot ← store.participant person.lookup
    pure (store, .applied snapshot)

def commit (lookup : ThreadLookup) : Store → Checked (Store × Applied ParticipantSnapshot) :=
  writing fun store => do
    let person ← store.participant lookup
    store.commitUncommitted person

def advanceGeneration (lookup : ThreadLookup) (expectedGeneration : Nat) :
    Store → Checked (Store × ParticipantSnapshot) :=
  writing fun store => do
    let person ← store.participant lookup
    require person.committed
      (.identityConflict "uncommitted participant cannot own a generation")
    require (person.ownerIdentity.generation = expectedGeneration)
      (.staleRevision "owner generation changed")
    let store ← store.advanceOwnerGeneration lookup expectedGeneration
    let snapshot ← store.participant lookup
    pure (store, snapshot)

end Store

/-! ### Claims before engagement -/

namespace WakeAssignment

def requireInitialDecision (assignment : WakeAssignment) : Checked Unit :=
  require (assignment = { assignment with
        lifecycle := assignment.lifecycle.mode.initialState
        updatedAt := assignment.acceptedAt
        revision := 1 } ∧
      assignment.resolverVersion = Coordination.resolverVersion ∧
      assignment.policyVersion = Coordination.policyVersion)
    (.identityConflict "claim acceptance requires initial frozen decision")

/-- Only lifecycle progress may differ from the accepted row. -/
def requireSameAcceptance (current candidate : WakeAssignment) : Checked Unit :=
  require (current = { candidate with
        lifecycle := current.lifecycle
        updatedAt := current.updatedAt
        revision := current.revision } ∧
      current.lifecycle.mode = candidate.lifecycle.mode)
    (.identityConflict "accepted claim identity conflicts")

end WakeAssignment

namespace Store

def accept (assignment : WakeAssignment) : Store → Checked (Store × Applied WakeAssignment) :=
  writing fun store => do
    assignment.requireInitialDecision
    match store.wakeClaims.values.find? fun row =>
        row.assignmentId == assignment.assignmentId ||
          (row.recipientLookup == assignment.recipientLookup &&
            row.wireSeq == assignment.wireSeq) with
    | some current => do
        current.requireSameAcceptance assignment
        pure (store, .alreadyApplied current)
    | none => do
        let store ← store.insertWakeClaim assignment
        pure (store, .applied assignment)

def transitionIn (clock : Clock) (assignmentId : AssignmentId) (disposition : AssignmentKind)
    (expectedRevision : Nat) (store : Store) : Checked (Store × WakeAssignment) := do
  let current ← store.assignment assignmentId
  require (current.revision = expectedRevision) (.staleRevision "claim revision changed")
  let lifecycle ← current.lifecycle.preengagement disposition
  let after := { current with
    lifecycle
    updatedAt := clock.now (.assignment assignmentId) current.updatedAt
    revision := current.revision + 1 }
  let store ← store.updateWakeClaim assignmentId (·.revision == expectedRevision)
    after.lifecycle after.revision after.updatedAt
  pure (store, after)

def transitionPreengagement (clock : Clock) (assignmentId : AssignmentId)
    (disposition : AssignmentKind) (expectedRevision : Nat) :
    Store → Checked (Store × WakeAssignment) :=
  writing (transitionIn clock assignmentId disposition expectedRevision)

end Store

/-! ### Executions before their first attempt -/

structure FrozenRecipient where
  recipientLookup : ThreadLookup
  canonicalThread : String
deriving DecidableEq

inductive RecipientDecision where
  | noWake (recipient : ThreadLookup)
  | wake (recipient : ThreadLookup) (audience : MessageAudience) (mode : WakePolicy)
deriving DecidableEq

/-- A committed delivery: its message, its reply route and what it decided. -/
structure Delivered where
  reference : MessageReference
  exactReplyTarget : String
  recipients : List (FrozenRecipient × RecipientDecision)
deriving DecidableEq

structure SelectedSource where
  assignmentId : AssignmentId
  delivery : Delivered
deriving DecidableEq

def WakeAssignment.requireCommittedSource (claim : WakeAssignment) (initial : Delivered) :
    Checked Unit := do
  require (claim.source = initial.reference)
    (.identityConflict "wake frame does not match a committed source")
  require (initial.recipients.count (⟨claim.recipientLookup, claim.recipient⟩,
      .wake claim.recipientLookup claim.audience claim.lifecycle.mode) = 1)
    (.identityConflict "wake frame requires one selected N/K recipient")

def Origin.requireSources (origin : Origin) (sources : List SelectedSource) : Checked Unit :=
  match origin with
  | .wire => require (sources ≠ [])
      (.identityConflict "wire execution requires ordered original sources")
  | _ => require (sources = []) (.identityConflict "claimless execution cannot bind claims")

/-- The reply routes of the sources, in the order they are first named. -/
def routesOf (sources : List SelectedSource) : List String :=
  (sources.map (·.delivery.exactReplyTarget)).reverse.dedup.reverse

namespace Store

def sourceAssignment (store : Store) (source : SelectedSource) : Checked WakeAssignment := do
  let current ← store.assignment source.assignmentId
  current.requireCommittedSource source.delivery
  pure current

def engageSource (clock : Clock) (executionId : ExecutionId) (ownerLookup : ThreadLookup)
    (store : Store) (member : (SelectedSource × WakeAssignment) × Nat) : Checked Store := do
  let ((source, assignment), ordinal) := member
  assignment.lifecycle.requireEngageable
  require (assignment.recipientLookup = ownerLookup ∧ assignment.lifecycle.executionId = none)
    (.identityConflict "claim cannot engage this execution")
  let decision ← AssignmentKind.engaged.build assignment.lifecycle.mode (some executionId)
    (some source.delivery.exactReplyTarget)
  require ((store.wakeClaims.get? source.assignmentId).any (·.revision == assignment.revision))
    (.staleRevision "original claim changed during engagement")
  let store ← store.updateWakeClaim source.assignmentId (·.revision == assignment.revision)
    decision (assignment.revision + 1)
    (clock.now (.assignment source.assignmentId) assignment.updatedAt)
  store.insertExecutionClaim ⟨executionId, source.assignmentId, ordinal⟩

def createNew (clock : Clock) (executionId : ExecutionId) (origin : Origin)
    (ownerLookup : ThreadLookup) (maxAttempts : Nat) (sources : List SelectedSource)
    (assignments : List WakeAssignment) (store : Store) :
    Checked (Store × Applied RecoverySnapshot) := do
  let participant ← store.participant ownerLookup
  require participant.committed (.identityConflict "execution requires committed current owner")
  require (0 < maxAttempts) (.valueError "max_attempts must be positive")
  require (sources.map SelectedSource.assignmentId).Nodup
    (.identityConflict "duplicate claim membership")
  let now := clock.now .created 0
  let store ← store.insertExecution
    { executionId, origin, lifecycle := .queued, ownerLookup, revision := 1, maxAttempts,
      reasonCode := none, createdAt := now, updatedAt := now }
  let store ← (sources.zip assignments).zipIdx.foldlM (engageSource clock executionId ownerLookup)
    store
  let store ← (routesOf sources).foldlM (fun store exactTarget =>
    store.insertObligation
      { executionId, exactTarget, lifecycle := .pending, reasonCode := none, createdAt := now,
        updatedAt := now, revision := 1 }) store
  let snapshot ← store.get executionId
  pure (store, .applied snapshot)

def create (clock : Clock) (executionId : ExecutionId) (origin : Origin)
    (ownerLookup : ThreadLookup) (maxAttempts : Nat) (sources : List SelectedSource) :
    Store → Checked (Store × Applied RecoverySnapshot) :=
  writing fun store => do
    let assignments ← sources.mapM store.sourceAssignment
    origin.requireSources sources
    match store.executions.get? executionId with
    | some _ => do
        let snapshot ← store.get executionId
        require (snapshot.execution.origin = origin ∧
            snapshot.execution.ownerLookup = ownerLookup ∧
            snapshot.execution.maxAttempts = maxAttempts ∧
            snapshot.obligations.map ResponseObligation.exactTarget =
              (routesOf sources).insertionSort (· ≤ ·) ∧
            snapshot.links.map ExecutionAssignmentLink.assignmentId =
              sources.map SelectedSource.assignmentId)
          (.identityConflict "execution identity conflicts")
        pure (store, .alreadyApplied snapshot)
    | none => createNew clock executionId origin ownerLookup maxAttempts sources assignments store

def markPending (clock : Clock) (executionId : ExecutionId) (expectedRevision : Nat) :
    Store → Checked (Store × RecoverySnapshot) :=
  writing fun store => do
    let snapshot ← store.get executionId
    require (snapshot.execution.revision = expectedRevision)
      (.staleRevision "execution revision changed")
    require (snapshot.execution.lifecycle.kind = .queued)
      (.identityConflict "only queued executions can become pending")
    let store ← store.updateExecution executionId (·.revision == expectedRevision) fun row =>
      { row with lifecycle := .pending, revision := expectedRevision + 1,
                 updatedAt := clock.now .execution snapshot.execution.updatedAt }
    let after ← store.get executionId
    pure (store, after)

def failUnstarted (clock : Clock) (executionId : ExecutionId) (expectedRevision : Nat)
    (reasonCode : String) : Store → Checked (Store × RecoverySnapshot) :=
  writing fun store => do
    let before ← store.get executionId
    let execution := before.execution
    require (execution.revision = expectedRevision) (.staleRevision "execution revision changed")
    require execution.lifecycle.kind.unstarted
      (.identityConflict "unstarted failure requires queued/pending work")
    let store ← store.updateExecution executionId (fun _ => true) fun row =>
      { row with lifecycle := .failed none, revision := execution.revision + 1,
                 reasonCode := some reasonCode,
                 updatedAt := clock.now .execution execution.updatedAt }
    let store ← before.updateObligations clock .failed (some reasonCode) store
    let store ← before.updateAssignments clock .failed (fun _ _ => true) store
    let after ← store.get executionId
    pure (store, after)

end Store

/-! ### Attempts -/

structure AttemptStart where
  executionId : ExecutionId
  attemptOrdinal : Nat
  ownerLookup : ThreadLookup
  ownerGeneration : Nat
  digest : String
  expectedExecutionRevision : Nat
  expectedPointerRevision : Nat
deriving DecidableEq

/-- The authority of an attempt and the revision its holder last saw. -/
structure OwnerFence where
  executionId : ExecutionId
  attemptOrdinal : Nat
  ownerLookup : ThreadLookup
  ownerGeneration : Nat
  revision : Nat
  digest : String
deriving DecidableEq

def OwnerFence.authority (fence : OwnerFence) : AttemptAuthority :=
  ⟨fence.executionId, fence.attemptOrdinal, fence.ownerLookup, fence.ownerGeneration,
    fence.digest⟩

structure StartResult where
  snapshot : RecoverySnapshot
  fence : OwnerFence

def initialLeaseDuration : Time := 60000

namespace AttemptStart

variable (request : AttemptStart)

def fence (revision : Nat) : OwnerFence :=
  ⟨request.executionId, request.attemptOrdinal, request.ownerLookup, request.ownerGeneration,
    revision, request.digest⟩

/-- Replay compares the immutable creation identity. -/
def replayedFence (snapshot : RecoverySnapshot) (old : AttemptRecord) : Checked OwnerFence := do
  require (old.attemptOrdinal = request.attemptOrdinal ∧
      old.ownerLookup = request.ownerLookup ∧ old.ownerGeneration = request.ownerGeneration ∧
      snapshot.execution.createdAt ≤ old.createdAt)
    (.identityConflict "prepared token is bound to a different attempt")
  pure (request.fence old.revision)

/-- A deferred execution restarts only after an attempt that may be retried. -/
def requireRetryStart (snapshot : RecoverySnapshot) : Checked Unit :=
  match snapshot.execution.lifecycle.kind, snapshot.attempt with
  | .deferred, none =>
    .error (.recoveryBlocked "frozen v2 cannot resume an unstarted deferral")
  | .deferred, some _ => require snapshot.canRetry
      (.recoveryBlocked "retry requires final death, replay proof, and budget")
  | _, _ => pure ()

def validate (snapshot : RecoverySnapshot) (participant : ParticipantSnapshot) : Checked Unit := do
  let execution := snapshot.execution
  let ordinal := execution.lifecycle.nextAttemptOrdinal
  require (participant.committed ∧ participant.ownerIdentity.ownerLookup = request.ownerLookup ∧
      participant.ownerIdentity.generation = request.ownerGeneration)
    (.staleFence "owner lookup or generation changed")
  require (execution.revision = request.expectedExecutionRevision ∧
      participant.pointer.pointerRevision = request.expectedPointerRevision)
    (.staleRevision "execution or pointer revision changed")
  participant.pointer.requireIdle
  require execution.lifecycle.kind.startsAttempt
    (.identityConflict "execution cannot start an attempt")
  require (snapshot.publicationIntents = [])
    (.publicationUncertain "no authorized bus-keyed publication resolution")
  requireRetryStart snapshot
  require (ordinal = request.attemptOrdinal)
    (.identityConflict "attempt ordinal must be contiguous")
  require (ordinal ≤ execution.maxAttempts) (.recoveryBlocked "retry budget exhausted")
  require (snapshot.attempt.all fun previous => previous.ownerGeneration < request.ownerGeneration)
    (.staleFence "retry must use a strictly newer owner generation")

def activate (clock : Clock) (snapshot : RecoverySnapshot) (store : Store) : Checked Store := do
  let execution := snapshot.execution
  let created := clock.now .created execution.updatedAt
  let store ← store.insertAttempt
    { executionId := request.executionId
      attemptOrdinal := request.attemptOrdinal
      ownerLookup := execution.ownerLookup
      ownerGeneration := request.ownerGeneration
      ownerTokenDigest := request.digest
      lifecycle := .live .promptStarting (created + initialLeaseDuration) false false
      revision := 1
      lastProgressAt := none
      reasonCode := none
      createdAt := created
      updatedAt := created }
  let store ← store.updateExecution request.executionId (fun _ => true) fun row =>
    { row with lifecycle := .active request.attemptOrdinal, revision := execution.revision + 1,
               reasonCode := none, updatedAt := created }
  store.updateCurrentExecution execution.ownerLookup (fun _ => true)
    (some (request.executionId, request.attemptOrdinal)) (snapshot.pointerRevision + 1)

/-- Reengage the deferred responses and, on a retry, the claims. -/
def resumeRetry (clock : Clock) (snapshot : RecoverySnapshot) (store : Store) : Checked Store := do
  let store ← (snapshot.obligations.filter (·.lifecycle.kind == .deferred)).foldlM
    (fun store obligation => store.updateObligation snapshot.execution.executionId
      obligation.exactTarget (fun _ => true) fun row =>
        { row with lifecycle := .pending
                   revision := obligation.revision + 1
                   reasonCode := none
                   updatedAt := clock.now (.obligation obligation.exactTarget)
                     obligation.updatedAt }) store
  if snapshot.execution.lifecycle.kind = .deferred then
    snapshot.updateAssignments clock .engaged (fun _ _ => true) store
  else pure store

end AttemptStart

namespace Store

def requireFence (store : Store) (fence : OwnerFence) :
    Checked (RecoverySnapshot × AttemptRecord) := do
  let snapshot ← store.get fence.executionId
  let attempt ← snapshot.requireCurrentAttempt
  let owner ← store.participant attempt.ownerLookup
  require (attempt.authority = fence.authority ∧
      owner.ownerIdentity.generation = attempt.ownerGeneration)
    (.staleFence "attempt fence is not current")
  require (attempt.revision = fence.revision) (.staleRevision "attempt fence revision changed")
  pure (snapshot, attempt)

def startNew (clock : Clock) (request : AttemptStart) (snapshot : RecoverySnapshot)
    (store : Store) : Checked (Store × Applied StartResult) := do
  require (store.attempts.values.all fun row => row.ownerTokenDigest != request.digest)
    (.identityConflict "prepared fence token has already been issued")
  let participant ← store.participant snapshot.execution.ownerLookup
  request.validate snapshot participant
  let store ← request.activate clock snapshot store
  let store ← AttemptStart.resumeRetry clock snapshot store
  let after ← store.get request.executionId
  pure (store, .applied ⟨after, request.fence 1⟩)

def start (clock : Clock) (request : AttemptStart) :
    Store → Checked (Store × Applied StartResult) :=
  writing fun store => do
    let snapshot ← store.get request.executionId
    match store.attempts.values.find? fun row =>
        row.executionId == request.executionId && row.ownerTokenDigest == request.digest with
    | some old => do
        let fence ← request.replayedFence snapshot old
        pure (store, .alreadyApplied ⟨snapshot, fence⟩)
    | none => startNew clock request snapshot store

/-- `AttemptRecord.advance`: record a checked phase. -/
def advanceAttempt (clock : Clock) (attempt : AttemptRecord) (phase : LivePhase)
    (backendDone processDead progress : Bool) (reasonCode : ReasonCode) (store : Store) :
    Checked Store := do
  let now := clock.now .observed attempt.updatedAt
  let lifecycle ← attempt.lifecycle.observed phase backendDone processDead progress
  store.updateAttempt attempt.executionId attempt.attemptOrdinal (fun _ => true) fun row =>
    { row with lifecycle, revision := attempt.revision + 1, updatedAt := now,
               lastProgressAt := if progress then some now else attempt.lastProgressAt,
               reasonCode }

def advance (clock : Clock) (fence : OwnerFence) (phase : AttemptKind)
    (expectedPointerRevision : Nat) (backendDone processDead progress : Bool)
    (reasonCode : ReasonCode) : Store → Checked (Store × StartResult) :=
  writing fun store =>
    match phase with
    | .terminal _ => .error (.identityConflict "terminal phases require atomic settlement")
    | .live phase => do
        let (snapshot, attempt) ← store.requireFence fence
        require (snapshot.pointerRevision = expectedPointerRevision)
          (.staleRevision "pointer revision changed")
        let store ← advanceAttempt clock attempt phase backendDone processDead progress
          reasonCode store
        let after ← store.get fence.executionId
        let current ← after.requireAttempt
        pure (store, ⟨after, { fence with revision := current.revision }⟩)

def finalizeUnknown (clock : Clock) (attempt : AttemptRecord) (store : Store) : Checked Store :=
  match attempt.lifecycle with
  | .live phase _ done dead =>
    if done && dead then pure store
    else advanceAttempt clock attempt phase true true false (some "native_unknown") store
  | .terminal _ => pure store

def failUnknown (clock : Clock) (fence : OwnerFence) (expectedPointerRevision : Nat)
    (release : Checked Unit) : Store → Checked (Store × RecoverySnapshot) :=
  writing fun store => do
    let (snapshot, attempt) ← store.requireFence fence
    require (snapshot.pointerRevision = expectedPointerRevision)
      (.staleRevision "pointer revision changed")
    require (snapshot.publicationIntents = [])
      (.publicationUncertain "UNKNOWN failure cannot resolve frozen publication")
    let store ← finalizeUnknown clock attempt store
    let final ← store.get fence.executionId
    let store ← final.settle clock .unknownOutcome (some "native_unknown") release store
    let after ← store.get fence.executionId
    pure (store, after)

end Store

/-- The turn failures by what they do to replay: a declared transient provider
failure may authorize a retry, every other one revokes it. -/
inductive TurnFailure where
  | retryableProvider
  | other
deriving DecidableEq, Repr

def TurnFailure.prepareExecutionRetry (failure : TurnFailure) (executionId : ExecutionId)
    (store : Store) : Checked Store :=
  match failure with
  | .retryableProvider => store.authorizeIfUnobserved executionId
  | .other => store.revoke executionId

namespace Store

/-- The snapshot a settlement decides on, after its failure prepared replay. -/
def preparedSettlement (fence : OwnerFence) (failure : Option TurnFailure)
    (snapshot : RecoverySnapshot) (store : Store) : Checked (Store × RecoverySnapshot) :=
  match failure with
  | none => pure (store, snapshot)
  | some failure => do
      let store ← failure.prepareExecutionRetry fence.executionId store
      let (snapshot, _) ← store.requireFence fence
      pure (store, snapshot)

def settleNonpublication (clock : Clock) (fence : OwnerFence) (expectedPointerRevision : Nat)
    (outcome : Outcome) (reasonCode : ReasonCode) (failure : Option TurnFailure)
    (release : Checked Unit) : Store → Checked (Store × RecoverySnapshot) :=
  writing fun store => do
    let (snapshot, _) ← store.requireFence fence
    require (snapshot.pointerRevision = expectedPointerRevision)
      (.staleRevision "pointer revision changed")
    let (store, snapshot) ← preparedSettlement fence failure snapshot store
    let store ← snapshot.settle clock outcome reasonCode release store
    let after ← store.get fence.executionId
    pure (store, after)

end Store

/-! ### Recovery of a lost owner -/

inductive PiStopReason where
  | pending | stop | length | toolUse | error | aborted | deferred | unreported
deriving DecidableEq, Repr

/-- The members of `FinishedPiStop`. -/
def PiStopReason.finished : PiStopReason → Bool
  | stop | length | error | aborted => true
  | pending | toolUse | deferred | unreported => false

/-- The outcome recovery may conclude, with its replay fact. -/
def PiStopReason.recordRecovery (terminal : PiStopReason) (executionId : ExecutionId)
    (store : Store) : Checked (Store × Outcome) := do
  let outcome := if terminal.finished then Outcome.attemptFailed else .unknownOutcome
  let fact := if terminal.finished then ReplayFact.assistantOutput
    else outcome.replayContribution
  let store ← store.accumulate executionId fact
  pure (store, outcome)

structure MonitorEvidence where
  subprocessDead : Bool
  backendDone : Bool
  reasonCode : String
  observedAt : Time
  terminal : PiStopReason

namespace Store

/-- The settlement of a dead and done attempt without frozen replies, with its audit. -/
def settleRecovered (clock : Clock) (executionId : ExecutionId) (ordinal : Nat)
    (outcome : Outcome) (evidence : MonitorEvidence) (now : Time)
    (release : Checked Unit) (store : Store) : Checked (Store × RecoverySnapshot) := do
  let snapshot ← store.get executionId
  let store ← snapshot.settle clock outcome (some evidence.reasonCode) release store
  let settled ← store.get executionId
  let store ← store.insertRecoveryAudit
    { auditId := store.nextAuditId, executionId
      kind := if settled.execution.lifecycle.kind = .deferred then .deferred else .failed
      reasonCode := evidence.reasonCode, attempt := ordinal, elapsed := 0, observedAt := now }
  let after ← store.get executionId
  pure (store, after)

/-- The transaction of `terminalize_dead_attempt`. `loss` is the authority of the
attempt whose owner was observed to be lost, if that proof was issued. Death and
completion commit even when nothing can be settled yet; the call then raises. -/
def terminalizeDeadAttempt (clock : Clock) (executionId : ExecutionId)
    (ordinal ownerGeneration expectedAttemptRevision expectedExecutionRevision
      expectedPointerRevision : Nat) (evidence : MonitorEvidence)
    (loss : Option AttemptAuthority) (release : Checked Unit) :
    Store → Checked (Store × Checked RecoverySnapshot) :=
  writing fun store => do
    require evidence.subprocessDead
      (.recoveryBlocked "monitor cannot record a live Pi RPC subprocess as dead")
    require loss.isSome
      (.recoveryBlocked "monitor requires an observed release of this exact owner")
    let snapshot ← store.get executionId
    let attempt ← orRefuse (snapshot.attempt.filter fun attempt => snapshot.isCurrent &&
        attempt.attemptOrdinal == ordinal && attempt.ownerGeneration == ownerGeneration)
      (.staleFence "monitor must name the exact old active attempt")
    require (attempt.revision = expectedAttemptRevision ∧
        snapshot.execution.revision = expectedExecutionRevision ∧
        snapshot.pointerRevision = expectedPointerRevision)
      (.staleRevision "monitor CAS is stale")
    require (loss = some attempt.authority)
      (.recoveryBlocked "monitor requires an observed release of this exact owner")
    let now := clock.now .observed (max attempt.updatedAt evidence.observedAt)
    let (store, outcome) ← evidence.terminal.recordRecovery executionId store
    let done := attempt.lifecycle.backendDone || evidence.backendDone
    let store ← store.updateAttempt executionId ordinal (fun _ => true) fun row =>
      { row with lifecycle := dead attempt.lifecycle done, revision := attempt.revision + 1,
                 updatedAt := now, reasonCode := some evidence.reasonCode }
    if done && snapshot.publicationIntents.isEmpty then do
      let (store, after) ← settleRecovered clock executionId ordinal outcome evidence now
        release store
      pure (store, .ok after)
    else pure (store, .error (if done then
        .publicationUncertain "frozen publication requires bus-keyed acknowledgement"
      else .recoveryBlocked "process death alone is not backend-final proof"))
where
  /-- `replace(lifecycle, process_dead=True, backend_done=…)`. -/
  dead (lifecycle : AttemptState) (done : Bool) : AttemptState :=
    match lifecycle with
    | .live phase lease _ _ => .live phase lease done true
    | .terminal outcome => .terminal outcome

/-- One of the changes of `ReplayAssessments`, in a transaction of its own. -/
def recordReplay (change : Store → Checked Store) : Store → Checked (Store × Unit) :=
  writing fun store => do
    let store ← change store
    pure (store, ())

end Store

end AgentComms.Coordination
