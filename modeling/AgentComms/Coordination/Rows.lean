import AgentComms.Coordination.States
import AgentComms.Library.Table

/-!
# Coordinator rows

Each table's row with its CHECK constraints (`Record.Valid`) and the update
triggers that compare the stored row with the new one (`Record.Admits`).
Conditions that read other tables stand with the statements of the store.
-/

namespace AgentComms.Coordination

open Library

def boundedText (text : String) : Bool := 1 ≤ text.length && text.length ≤ 256

def validExecutionId (id : ExecutionId) : Bool := boundedText id && !id.toList.contains ':'

abbrev ReasonCode := Option String

def validReason (reason : ReasonCode) : Bool :=
  reason.all fun text => 1 ≤ text.length && text.length ≤ 64

structure MessageReference where
  seq : Nat
  messageId : MessageId
deriving DecidableEq, Repr

/-! ### Participants -/

structure Participant where
  participantLookup : ThreadLookup
  committed : Bool
deriving DecidableEq

instance : Record Participant ThreadLookup where
  key := Participant.participantLookup
  Valid := fun _ => True
  Admits := fun old new =>
    new.participantLookup = old.participantLookup ∧ (old.committed → new.committed)

structure OwnerGeneration where
  ownerLookup : ThreadLookup
  generation : Nat
deriving DecidableEq

instance : Record OwnerGeneration ThreadLookup where
  key := OwnerGeneration.ownerLookup
  Valid := fun row => 0 < row.generation
  Admits := fun old new => new.ownerLookup = old.ownerLookup ∧
    (new.generation = old.generation ∨ new.generation = old.generation + 1)

/-- `CurrentExecutions`: the attempt an owner works on, if any. -/
structure CurrentExecution where
  ownerLookup : ThreadLookup
  executionId : Option ExecutionId
  attemptOrdinal : Option Nat
  pointerRevision : Nat
deriving DecidableEq

instance : Record CurrentExecution ThreadLookup where
  key := CurrentExecution.ownerLookup
  Valid := fun row => row.executionId.isSome = row.attemptOrdinal.isSome ∧
    row.executionId.all validExecutionId ∧ row.attemptOrdinal.all (0 < ·)
  Admits := fun old new => new.ownerLookup = old.ownerLookup ∧
    new.pointerRevision = old.pointerRevision + 1

def CurrentExecution.requireIdle (pointer : CurrentExecution) : Checked Unit :=
  require (pointer.executionId = none)
    (.staleFence "selected owner has an unresolved execution; new claims remain pending")

/-! ### Executions -/

/-- `ExecutionProvenance`; every origin but `wire` is claimless. -/
inductive Origin where
  | wire | acp | goal | system
deriving DecidableEq, Repr

structure ExecutionRecord where
  executionId : ExecutionId
  origin : Origin
  lifecycle : ExecutionState
  ownerLookup : ThreadLookup
  revision : Nat
  maxAttempts : Nat
  reasonCode : ReasonCode
  createdAt : Time
  updatedAt : Time
deriving DecidableEq

instance : Record ExecutionRecord ExecutionId where
  key := ExecutionRecord.executionId
  Valid := fun row => validExecutionId row.executionId ∧ 0 < row.revision ∧
    0 < row.maxAttempts ∧ row.lifecycle.withinBudget row.maxAttempts ∧
    validReason row.reasonCode ∧ row.createdAt ≤ row.updatedAt
  Admits := fun old new => new.executionId = old.executionId ∧ new.origin = old.origin ∧
    new.ownerLookup = old.ownerLookup ∧ new.maxAttempts = old.maxAttempts ∧
    new.createdAt = old.createdAt ∧ new.revision = old.revision + 1 ∧
    old.updatedAt ≤ new.updatedAt ∧
    (new.lifecycle.kind = old.lifecycle.kind ∨
      new.lifecycle.kind ∈ old.lifecycle.kind.successors) ∧
    new.lifecycle.acceptsPrevious old.lifecycle

/-- `ReplayAssessments`: what is known about replaying an execution's turns. -/
structure ReplayAssessment where
  executionId : ExecutionId
  facts : ReplayFacts
  replaySafe : Bool
  sideEffectsPossible : Bool
  revision : Nat
deriving DecidableEq

instance : Record ReplayAssessment ExecutionId where
  key := ReplayAssessment.executionId
  Valid := fun row => validExecutionId row.executionId ∧ 0 < row.revision ∧
    (row.facts = ReplayFact.none ∨ row.replaySafe = false)
  Admits := fun old new => new.executionId = old.executionId ∧
    new.revision = old.revision + 1 ∧ (old.sideEffectsPossible → new.sideEffectsPossible) ∧
    (new.replaySafe → old.replaySafe) ∧ new.facts ||| old.facts = new.facts

/-- The generated column `retry_authorized`. -/
def ReplayAssessment.allowsRetry (row : ReplayAssessment) : Bool :=
  row.replaySafe && row.facts == ReplayFact.none && !row.sideEffectsPossible

/-! ### Attempts -/

structure AttemptAuthority where
  executionId : ExecutionId
  ordinal : Nat
  ownerLookup : ThreadLookup
  ownerGeneration : Nat
  tokenDigest : String
deriving DecidableEq

structure AttemptRecord where
  executionId : ExecutionId
  attemptOrdinal : Nat
  ownerLookup : ThreadLookup
  ownerGeneration : Nat
  ownerTokenDigest : String
  lifecycle : AttemptState
  revision : Nat
  lastProgressAt : Option Time
  reasonCode : ReasonCode
  createdAt : Time
  updatedAt : Time
deriving DecidableEq

namespace AttemptRecord

def authority (attempt : AttemptRecord) : AttemptAuthority :=
  ⟨attempt.executionId, attempt.attemptOrdinal, attempt.ownerLookup, attempt.ownerGeneration,
    attempt.ownerTokenDigest⟩

def Ordered (old new : AttemptRecord) : Prop :=
  old.updatedAt ≤ new.updatedAt ∧
    (old.lastProgressAt.all fun before => new.lastProgressAt.any (before ≤ ·)) ∧
    (old.lifecycle.backendDone → new.lifecycle.backendDone) ∧
    (old.lifecycle.processDead → new.lifecycle.processDead) ∧
    (old.lifecycle.leaseExpiresAt.all fun before =>
      new.lifecycle.leaseExpiresAt.all (before ≤ ·))

instance (old new : AttemptRecord) : Decidable (Ordered old new) := by
  unfold Ordered
  infer_instance

end AttemptRecord

instance : Record AttemptRecord (ExecutionId × Nat) where
  key := fun row => (row.executionId, row.attemptOrdinal)
  Valid := fun row => validExecutionId row.executionId ∧ boundedText row.ownerTokenDigest ∧
    0 < row.attemptOrdinal ∧ 0 < row.ownerGeneration ∧ 0 < row.revision ∧
    validReason row.reasonCode ∧ row.createdAt ≤ row.updatedAt ∧
    (row.lastProgressAt.all fun progress =>
      row.createdAt ≤ progress && progress ≤ row.updatedAt)
  Admits := fun old new => new.authority = old.authority ∧ new.createdAt = old.createdAt ∧
    new.revision = old.revision + 1 ∧ AttemptRecord.Ordered old new ∧
    -- A declared edge, or the same live phase: a final state is never rewritten.
    (old.lifecycle.kind.mayBecome new.lifecycle.kind ∨
      (new.lifecycle.kind = old.lifecycle.kind ∧ old.lifecycle.isLive))
  key_of_admits := by
    rintro old new ⟨hauthority, -⟩
    exact Prod.ext (congrArg AttemptAuthority.executionId hauthority)
      (congrArg AttemptAuthority.ordinal hauthority)

/-! ### Claims -/

inductive MessageAudience where
  | direct | mentioned | collective
deriving DecidableEq, Repr

def resolverVersion : String := "resolver-v1"

def policyVersion : String := "policy-v1"

structure WakeAssignment where
  assignmentId : AssignmentId
  recipient : String
  recipientLookup : ThreadLookup
  wireSeq : Nat
  messageId : MessageId
  audience : MessageAudience
  lifecycle : AssignmentState
  acceptedAt : Time
  updatedAt : Time
  revision : Nat
  resolverVersion : String
  policyVersion : String
deriving DecidableEq

namespace WakeAssignment

def source (claim : WakeAssignment) : MessageReference := ⟨claim.wireSeq, claim.messageId⟩

/-- The columns an acceptance freezes, the wake policy among them. -/
def SameAcceptance (old new : WakeAssignment) : Prop :=
  new.assignmentId = old.assignmentId ∧ new.recipient = old.recipient ∧
    new.recipientLookup = old.recipientLookup ∧ new.wireSeq = old.wireSeq ∧
    new.messageId = old.messageId ∧ new.audience = old.audience ∧
    new.acceptedAt = old.acceptedAt ∧ new.resolverVersion = old.resolverVersion ∧
    new.policyVersion = old.policyVersion ∧ new.lifecycle.mode = old.lifecycle.mode

instance (old new : WakeAssignment) : Decidable (SameAcceptance old new) := by
  unfold SameAcceptance
  infer_instance

/-- A recorded value is never replaced, and a claim is first bound by engaging. -/
def WriteOnce (old new : WakeAssignment) : Prop :=
  (old.lifecycle.verdict.isSome → new.lifecycle.verdict = old.lifecycle.verdict) ∧
    (old.lifecycle.executionId.isSome →
      new.lifecycle.executionId = old.lifecycle.executionId) ∧
    (old.lifecycle.exactTarget.isSome →
      new.lifecycle.exactTarget = old.lifecycle.exactTarget) ∧
    (old.lifecycle.executionId = none → new.lifecycle.executionId.isSome →
      new.lifecycle.kind = .engaged)

instance (old new : WakeAssignment) : Decidable (WriteOnce old new) := by
  unfold WriteOnce
  infer_instance

end WakeAssignment

instance : Record WakeAssignment AssignmentId where
  key := WakeAssignment.assignmentId
  Valid := fun row => boundedText row.assignmentId ∧ boundedText row.recipient ∧
    boundedText row.recipientLookup ∧ boundedText row.messageId ∧
    boundedText row.resolverVersion ∧ boundedText row.policyVersion ∧
    row.lifecycle.exactTarget.all boundedText ∧
    row.lifecycle.executionId.all validExecutionId ∧ 0 < row.wireSeq ∧ 0 < row.revision ∧
    row.acceptedAt ≤ row.updatedAt
  Admits := fun old new => WakeAssignment.SameAcceptance old new ∧
    WakeAssignment.WriteOnce old new ∧ new.revision = old.revision + 1 ∧
    old.updatedAt ≤ new.updatedAt ∧ new.lifecycle.kind ∈ old.lifecycle.kind.successors
  key_of_admits := fun hadmits => hadmits.1.1

structure ExecutionAssignmentLink where
  executionId : ExecutionId
  assignmentId : AssignmentId
  ordinal : Nat
deriving DecidableEq

instance : Record ExecutionAssignmentLink (ExecutionId × Nat) where
  key := fun row => (row.executionId, row.ordinal)
  Valid := fun row => validExecutionId row.executionId ∧ boundedText row.assignmentId

/-! ### Responses and publications -/

structure ResponseObligation where
  executionId : ExecutionId
  exactTarget : String
  lifecycle : ResponseState
  reasonCode : ReasonCode
  createdAt : Time
  updatedAt : Time
  revision : Nat
deriving DecidableEq

instance : Record ResponseObligation (ExecutionId × String) where
  key := fun row => (row.executionId, row.exactTarget)
  Valid := fun row => validExecutionId row.executionId ∧ boundedText row.exactTarget ∧
    0 < row.revision ∧ validReason row.reasonCode ∧ row.createdAt ≤ row.updatedAt ∧
    (match row.lifecycle with
      | .published _ seq => decide (0 < seq)
      | _ => true) = true
  Admits := fun old new => (new.executionId, new.exactTarget) = (old.executionId, old.exactTarget) ∧
    new.createdAt = old.createdAt ∧ new.revision = old.revision + 1 ∧
    old.updatedAt ≤ new.updatedAt ∧ new.lifecycle.kind ∈ old.lifecycle.kind.successors

inductive MessageKind where
  | claimNotice | claimHistory | info | question | ack | handoff | alert | changeReport
deriving DecidableEq, Repr

inductive MessageRole where
  | conversation | notice | membershipConversation | membershipNotice
deriving DecidableEq, Repr

inductive SenderRole where
  | agent | service | acp | user
deriving DecidableEq, Repr

/-- A bus message. `messageId` is the digest of its sender, target, time and text;
the bus assigns `seq`, `senderRole` and `mentions` when it stores the message. -/
structure Message where
  sender : String
  target : String
  body : String
  kind : MessageKind
  timestamp : Nat
  role : MessageRole
  answers : List MessageReference
  messageId : MessageId
  seq : Nat := 0
  senderRole : SenderRole := .agent
  mentions : List (Nat × Nat × String) := []
deriving DecidableEq

namespace Message

def publicationSnapshot (message : Message) : Message :=
  { message with seq := 0, senderRole := .agent, mentions := [] }

def reference (message : Message) : MessageReference := ⟨message.seq, message.messageId⟩

end Message

def canonicalPublicationKey (executionId : ExecutionId) (exactTarget : String) : String :=
  "publication:v1:" ++ executionId ++ ":" ++ exactTarget

/-- `PublicationIntents`: the frozen reply of one obligation route. -/
structure PublicationIntent where
  executionId : ExecutionId
  exactTarget : String
  message : Message
  publicationKey : String
  expectedMessageId : MessageId
deriving DecidableEq

instance : Record PublicationIntent (ExecutionId × String) where
  key := fun row => (row.executionId, row.exactTarget)
  Valid := fun row => validExecutionId row.executionId ∧ boundedText row.exactTarget ∧
    row.message.body ≠ "" ∧ row.message.sender.length ≤ 256 ∧
    row.message.target = row.exactTarget ∧ row.message.body.utf8ByteSize ≤ 120000 ∧
    row.publicationKey = canonicalPublicationKey row.executionId row.exactTarget ∧
    boundedText row.publicationKey ∧ row.message.messageId = row.expectedMessageId

structure PublicationEvidence where
  executionId : ExecutionId
  exactTarget : String
  seq : Nat
  messageId : MessageId
  receivedAt : Time
deriving DecidableEq

instance : Record PublicationEvidence (ExecutionId × String) where
  key := fun row => (row.executionId, row.exactTarget)
  Valid := fun row => validExecutionId row.executionId ∧ boundedText row.exactTarget ∧ 0 < row.seq

/-- `PublicationAppendDispatches`: a call is about to append this route's reply. -/
structure PublicationAppendDispatch where
  executionId : ExecutionId
  exactTarget : String
  wireRootId : String
  ownerGeneration : Nat
  attemptOrdinal : Nat
  dispatchedAt : Time
deriving DecidableEq

instance : Record PublicationAppendDispatch (ExecutionId × String) where
  key := fun row => (row.executionId, row.exactTarget)
  Valid := fun row => boundedText row.exactTarget ∧ 0 < row.ownerGeneration ∧
    0 < row.attemptOrdinal

def PublicationAppendDispatch.matchesAttempt (dispatch : PublicationAppendDispatch)
    (wireRootId : String) (executionId : ExecutionId) (ownerGeneration attemptOrdinal : Nat)
    (exactTarget : String) : Bool :=
  dispatch == ⟨executionId, exactTarget, wireRootId, ownerGeneration, attemptOrdinal,
    dispatch.dispatchedAt⟩

/-! ### Recovery -/

inductive RecoveryCondition where
  | deferred | failed
deriving DecidableEq, Repr

/-- `auditId` is allocated in increasing order. -/
structure RecoveryAudit where
  auditId : Nat
  executionId : ExecutionId
  kind : RecoveryCondition
  reasonCode : String
  attempt : Nat
  elapsed : Time
  observedAt : Time
deriving DecidableEq

instance : Record RecoveryAudit Nat where
  key := RecoveryAudit.auditId
  Valid := fun row => validExecutionId row.executionId ∧ validReason (some row.reasonCode) ∧
    0 < row.attempt

end AgentComms.Coordination
