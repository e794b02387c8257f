import AgentComms.Coordination.Runs
import AgentComms.Inputs.Attempts

/-!
# The coordinator database

The tables beside the claims: what bridges did with a message, which deliveries were
sealed, and the native inputs a process reserved for its claims.
-/

namespace AgentComms.Coordination

open Library
open Inputs (NativeContextProof)

/-! ### Harness attempts and sealed cohorts -/

/-- The declared name of a bridge; the family is open. -/
abbrev Bridge := String

/-- `Outcome` of a harness attempt. -/
inductive HarnessOutcome where
  | filtered | unconfirmed | delivered | accepted | persisted | emitted
deriving DecidableEq, Repr

/-- The members of `FilteredOutcome`: no later emission or observation changes them. -/
def HarnessOutcome.settled : HarnessOutcome → Bool
  | filtered | delivered | accepted | persisted => true
  | unconfirmed | emitted => false

/-- `MonitorEvidence` of a harness attempt. -/
inductive HarnessMonitor where
  | unrecorded
  | receiving (total : Nat)
  | ledgerReceiving (total : Nat) (ledger : String)
  | mismatched (reason : String)
  | observed (recordId : String)
deriving DecidableEq, Repr

structure HarnessDelivery where
  bridge : Bridge
  recipientLookup : ThreadLookup
  messageId : MessageId
  seq : Nat
  outcome : HarnessOutcome
  monitor : HarnessMonitor
deriving DecidableEq

namespace HarnessDelivery

def reference (delivery : HarnessDelivery) : MessageReference :=
  ⟨delivery.seq, delivery.messageId⟩

def identity (delivery : HarnessDelivery) : Bridge × ThreadLookup × MessageId :=
  (delivery.bridge, delivery.recipientLookup, delivery.messageId)

end HarnessDelivery

instance : Record HarnessDelivery (Bridge × ThreadLookup × MessageId) where
  key := HarnessDelivery.identity
  Valid := fun row => 0 < row.seq
  Admits := fun old new => new.identity = old.identity ∧ new.seq = old.seq

/-- A sealed cohort: `ClaimBatchAcknowledgements` with its `ClaimBatchMembers` and
`CohortDeliveries`. All are written in the transaction that seals them, so no other
transaction sees one without the others. -/
structure CohortReceipt where
  wireRootId : String
  initial : Delivered
  acceptedAt : Time
  members : List (AssignmentId × ThreadLookup)
  deliveries : List (FrozenRecipient × Option AssignmentId)
deriving DecidableEq

def CohortReceipt.wireSeq (receipt : CohortReceipt) : Nat := receipt.initial.reference.seq

instance : Record CohortReceipt (String × Nat) where
  key := fun row => (row.wireRootId, row.wireSeq)
  Valid := fun row => 0 < row.wireSeq ∧ boundedText row.initial.exactReplyTarget ∧
    row.deliveries.length ≤ 4096 ∧
    (row.members.map Prod.fst).Nodup ∧ (row.members.map Prod.snd).Nodup ∧
    (row.deliveries.map (·.1.recipientLookup)).Nodup ∧
    (row.deliveries.map (·.1.canonicalThread)).Nodup ∧
    ∀ delivery ∈ row.deliveries, boundedText delivery.1.canonicalThread
  Admits := fun old new => new = old
  key_of_admits := by rintro _ _ rfl; rfl

/-! ### Native inputs -/

abbrev InputId := String

inductive NativeInputExecution where
  | triage
  | full (executionId : ExecutionId) (attemptOrdinal : Nat)
deriving DecidableEq, Repr

inductive SelectedTriage where
  | ignore | full
deriving DecidableEq, Repr

/-- The CHECK on the stage columns: only a triage input has a verdict. -/
def NativeInputExecution.accepts (verdict : Option SelectedTriage) : NativeInputExecution → Bool
  | triage => true
  | full executionId ordinal => validExecutionId executionId && 0 < ordinal && verdict.isNone

structure NativeSessionIdentity where
  sessionId : String
  sessionFile : String
deriving DecidableEq, Repr

/-- The recorded grant to send: the claim generation of its owner and the session. -/
structure SendGrant where
  claimedGeneration : Nat
  session : NativeSessionIdentity
deriving DecidableEq, Repr

/-- One reserved native input. The grant, the context it entered and its verdict are
NULL until recorded; the context is kept with the input and session it names. -/
structure NativeRuntimeInput where
  inputId : InputId
  execution : NativeInputExecution
  ownerLookup : ThreadLookup
  ownerGeneration : Nat
  ownerTokenDigest : String
  sent : Option SendGrant
  context : Option NativeContextProof
  verdict : Option SelectedTriage
deriving DecidableEq

/-- A recorded group is never replaced. -/
def NativeRuntimeInput.WriteOnce (old new : NativeRuntimeInput) : Prop :=
  (old.sent.isSome → new.sent = old.sent) ∧ (old.context.isSome → new.context = old.context) ∧
    (old.verdict.isSome → new.verdict = old.verdict)

instance (old new : NativeRuntimeInput) : Decidable (old.WriteOnce new) := by
  unfold NativeRuntimeInput.WriteOnce
  infer_instance

instance : Record NativeRuntimeInput InputId where
  key := NativeRuntimeInput.inputId
  Valid := fun row => 0 < row.ownerGeneration ∧ row.ownerTokenDigest.length = 64 ∧
    row.execution.accepts row.verdict ∧
    (row.sent.all fun grant => 0 < grant.claimedGeneration && grant.session.sessionId != "" &&
      grant.session.sessionFile != "") ∧
    (row.context.all fun context => context.sessionEntryId != "" &&
      0 < context.requestGeneration && context.llmContextDigest.length == 64 &&
      0 < context.committedAtMs && row.sent.isSome)
  Admits := fun old new => new.inputId = old.inputId ∧ new.execution = old.execution ∧
    (new.ownerLookup, new.ownerGeneration, new.ownerTokenDigest) =
      (old.ownerLookup, old.ownerGeneration, old.ownerTokenDigest) ∧
    old.WriteOnce new ∧ new.sent.isSome

structure TriageNativeSource where
  inputId : InputId
  ordinal : Nat
  assignmentId : AssignmentId
  attempt : Nat
deriving DecidableEq

instance : Record TriageNativeSource (InputId × Nat) where
  key := fun row => (row.inputId, row.ordinal)
  Valid := fun _ => True
  Admits := fun old new => new = old
  key_of_admits := by rintro _ _ rfl; rfl

/-! ### The database -/

structure Coordinator where
  store : Store
  harness : Table HarnessDelivery
  receipts : Table CohortReceipt
  natives : Table NativeRuntimeInput
  triageSources : Table TriageNativeSource

namespace Coordinator

def empty : Coordinator := ⟨.empty, .empty, .empty, .empty, .empty⟩

def writing {α : Type} (body : Coordinator → Checked (Coordinator × α))
    (coordinator : Coordinator) : Checked (Coordinator × α) := do
  let written ← body coordinator
  require written.1.store.ForeignKeys (.refusedStatement "FOREIGN KEY")
  pure written

variable (coordinator : Coordinator)

/-- `TriageNativeExecution.source_membership_sql`, for one input in order. -/
def triageMembers (inputId : InputId) : List TriageNativeSource :=
  coordinator.triageSources.selectBy TriageNativeSource.ordinal (·.inputId == inputId)

/-- `FullNativeExecution.source_membership_sql` for one execution: its linked claims. -/
def linkedMembers (executionId : ExecutionId) : List ExecutionAssignmentLink :=
  coordinator.store.executionClaims.selectBy ExecutionAssignmentLink.ordinal
    (·.executionId == executionId)

def sourceAssignmentIds (execution : NativeInputExecution)
    (inputId : InputId) : List AssignmentId :=
  match execution with
  | .triage => (coordinator.triageMembers inputId).map TriageNativeSource.assignmentId
  | .full _ _ =>
    match coordinator.natives.get? inputId with
    | some ⟨_, .full executionId _, _, _, _, _, _, _⟩ =>
      (coordinator.linkedMembers executionId).map ExecutionAssignmentLink.assignmentId
    | _ => []

/-- The claim is a source of some native input, of either stage. -/
def hasNativeSource (assignmentId : AssignmentId) : Bool :=
  (coordinator.triageSources.values.any fun source => source.assignmentId == assignmentId) ||
    coordinator.natives.values.any fun row =>
      match row.execution with
      | .triage => false
      | .full executionId _ => (coordinator.linkedMembers executionId).any fun link =>
        link.assignmentId == assignmentId

end Coordinator

end AgentComms.Coordination
