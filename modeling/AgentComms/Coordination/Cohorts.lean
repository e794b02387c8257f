import AgentComms.Coordination.Coordinator
import AgentComms.Library.Paging

/-!
# Cohort acceptance and harness deliveries

Cohort acceptance creates the claims of one bus message, and a bridge to an external
harness records what it did with that message. Both write the claims of the store in
their own transaction, so the state here is the store with the tables beside it.
-/

namespace AgentComms.Coordination

open Library

/-! ### Steps inside a caller's transaction -/

/-- Every step of a walk reads the clock for itself. -/
abbrev Readings := AssignmentKind → Clock

namespace Store

/-- The steps one claim declares, each fenced by the revision the step before wrote. -/
def walk (readings : Readings) (claim : WakeAssignment) :
    List AssignmentKind → Store → Checked Store
  | [], store => pure store
  | disposition :: rest, store => do
      let (store, claim) ← store.transitionIn (readings disposition) claim.assignmentId
        disposition claim.revision
      walk readings claim rest store

/-- `for_harness_sources` for one message: the recipient's claim at its sequence. -/
def claimsAt (store : Store) (lookup : ThreadLookup) (wireSeq : Nat) : List WakeAssignment :=
  store.wakeClaims.values.filter fun claim =>
    claim.recipientLookup == lookup && claim.wireSeq == wireSeq

def settleHarnessInputs (readings : Readings) (lookup : ThreadLookup)
    (reference : MessageReference) (steps : AssignmentState → List AssignmentKind)
    (store : Store) : Checked Store :=
  (store.claimsAt lookup reference.seq).foldlM (fun store claim => do
    require (claim.source = reference)
      (.identityConflict "harness delivery names another message at this sequence")
    store.walk readings claim (steps claim.lifecycle)) store

end Store

namespace AssignmentState

/-- Unbound deferred input is never selected, so it is not replayed natively. -/
def harnessHandoff : AssignmentState → List AssignmentKind
  | triagePending | fullPending => [.deferred]
  | _ => []

def harnessDelivery : AssignmentState → List AssignmentKind
  | triagePending | fullPending => [.deferred, .delivered]
  | deferred _ => [.delivered]
  | _ => []

/-- `PendingNotification` in the selection of pending work: a deferred claim is selected
only for the next attempt of its own execution. -/
def selectedPending (state : AssignmentState) : Bool :=
  match state.kind with
  | .triagePending | .fullPending => true
  | .deferred => state.executionId.isSome
  | _ => false

end AssignmentState

/-- Only a complete, matching observation proves that the message started. -/
def HarnessMonitor.claimSteps (monitor : HarnessMonitor) (state : AssignmentState) :
    List AssignmentKind :=
  match monitor with
  | .observed _ => state.harnessDelivery
  | _ => []

namespace Coordinator

/-! ### Harness deliveries -/

variable (coordinator : Coordinator)

/-- The attempt as stored; one stored at another sequence is another message. -/
def stored (attempt : HarnessDelivery) : Checked (Option HarnessDelivery) :=
  match coordinator.harness.get? attempt.identity with
  | none => pure none
  | some row => do
      require (row.seq = attempt.seq) (.identityConflict ("message " ++ attempt.messageId ++
        " was attempted at " ++ toString row.seq ++ ", not " ++ toString attempt.seq))
      pure (some row)

/-- The INSERT of an attempt: its recipient participates, and its bridge attempted no
other message at this sequence for that recipient. -/
def insertHarness (row : HarnessDelivery) : Checked Coordinator := do
  require ((coordinator.store.participants.get? row.recipientLookup).isSome ∧
    coordinator.harness.values.all fun other => !(other.bridge == row.bridge &&
      other.recipientLookup == row.recipientLookup && other.seq == row.seq))
    (.refusedStatement "harness_deliveries")
  let harness ← Store.accepted "harness_deliveries" (coordinator.harness.insert? row)
  pure { coordinator with harness }

/-- `upsert`: on a stored key, replace the other columns. -/
def upsertHarness (row : HarnessDelivery) : Checked Coordinator :=
  match coordinator.harness.get? row.identity with
  | none => coordinator.insertHarness row
  | some _ => do
      let harness ← Store.accepted "harness_deliveries"
        (coordinator.harness.update? row.identity (fun _ => true) fun _ => row)
      pure { coordinator with harness }

def writeHarness (attempt : HarnessDelivery) : Checked Coordinator := do
  let _ ← coordinator.stored attempt
  coordinator.upsertHarness attempt

def firstWrite (attempt : HarnessDelivery) : Checked (Coordinator × Bool) := do
  match ← coordinator.stored attempt with
  | some _ => pure (coordinator, false)
  | none => do
      let coordinator ← coordinator.insertHarness attempt
      pure (coordinator, true)

variable (readings : Readings)

/-- The claim leaves the native queue, then takes the steps this outcome proves. -/
def settleClaims (store : Store) (attempt : HarnessDelivery) : Checked Store := do
  let store ← store.settleHarnessInputs readings attempt.recipientLookup attempt.reference
    AssignmentState.harnessHandoff
  store.settleHarnessInputs readings attempt.recipientLookup attempt.reference
    attempt.monitor.claimSteps

/-- `begin`: the claim leaves the native queue in the write that stores the attempt. -/
def beginHarness (attempt : HarnessDelivery) : Coordinator → Checked (Coordinator × Bool) :=
  writing fun coordinator => do
    let store ← settleClaims readings coordinator.store attempt
    { coordinator with store }.firstWrite attempt

def recordIn (attempt : HarnessDelivery)
    (coordinator : Coordinator) : Checked (Coordinator × HarnessDelivery) := do
  let store ← settleClaims readings coordinator.store attempt
  let coordinator ← { coordinator with store }.writeHarness attempt
  pure (coordinator, attempt)

/-- `record`: the outcome and the claim steps it declares commit together. -/
def recordHarness (attempt : HarnessDelivery) :
    Coordinator → Checked (Coordinator × HarnessDelivery) :=
  writing (recordIn readings attempt)

/-- `Outcome.settle`: an open attempt takes the successor, a settled one stays. -/
def settleOutcome (outcome : HarnessOutcome)
    (successor : HarnessDelivery) (coordinator : Coordinator) :
    Checked (Coordinator × HarnessDelivery) :=
  if outcome.settled then do
    let row ← coordinator.stored successor
    let row ← orRefuse row (.valueError "not enough values to unpack (expected 1, got 0)")
    pure (coordinator, row)
  else recordIn readings successor coordinator

/-- `apply`: change the attempt as stored inside this write. -/
def applyHarness (change : HarnessDelivery → HarnessDelivery) (attempt : HarnessDelivery) :
    Coordinator → Checked (Coordinator × HarnessDelivery) :=
  writing fun coordinator => do
    let row ← coordinator.stored attempt
    let row ← orRefuse row (.valueError "not enough values to unpack (expected 1, got 0)")
    settleOutcome readings row.outcome (change row) coordinator

end Coordinator

/-! ### Cohort acceptance -/

namespace RecipientDecision

def recipient : RecipientDecision → ThreadLookup
  | noWake recipient | wake recipient _ _ => recipient

/-- `claim_decisions`: an observer's delivery creates no claim. -/
def claims : RecipientDecision → Bool
  | noWake _ => false
  | wake _ _ _ => true

end RecipientDecision

/-- The digest of the root, the sequence and the recipient. -/
abbrev Identify := ThreadLookup → AssignmentId

def Delivered.claimOf (initial : Delivered) (identify : Identify)
    (acceptedAt : Time) (member : FrozenRecipient × RecipientDecision) : Option WakeAssignment :=
  match member.2 with
  | .noWake _ => none
  | .wake lookup audience mode => some
      { assignmentId := identify lookup
        recipient := member.1.canonicalThread
        recipientLookup := lookup
        wireSeq := initial.reference.seq
        messageId := initial.reference.messageId
        audience
        lifecycle := mode.initialState
        acceptedAt
        updatedAt := acceptedAt
        revision := 1
        resolverVersion := Coordination.resolverVersion
        policyVersion := Coordination.policyVersion }

def Delivered.expectedFor (initial : Delivered) (identify : Identify)
    (acceptedAt : Time) (member : FrozenRecipient × RecipientDecision) :
    Checked (List WakeAssignment) := do
  require (member.1.recipientLookup = member.2.recipient)
    (.integrityViolation "bus decision does not match frozen N")
  pure (initial.claimOf identify acceptedAt member).toList

/-- `_expected_assignments`. -/
def Delivered.expectedAssignments (initial : Delivered) (identify : Identify)
    (acceptedAt : Time) : Checked (List WakeAssignment) :=
  List.flatten <$> initial.recipients.mapM (initial.expectedFor identify acceptedAt)

structure AcceptedCohort where
  wireRootId : String
  wireSeq : Nat
  messageId : MessageId
  memberCount : Nat
  assignmentCount : Nat
  acceptedAt : Time
  assignments : List WakeAssignment
deriving DecidableEq

def CohortReceipt.forDelivery (wireRootId : String) (initial : Delivered) (acceptedAt : Time)
    (expected : List WakeAssignment) : CohortReceipt where
  wireRootId
  initial
  acceptedAt
  members := expected.map fun claim => (claim.assignmentId, claim.recipientLookup)
  deliveries := initial.recipients.map fun member =>
    (member.1, (expected.find? fun claim =>
      claim.recipientLookup == member.1.recipientLookup).map WakeAssignment.assignmentId)

namespace Coordinator

variable (coordinator : Coordinator)

def claimRecord (identify : Identify)
    (wireRootId : String) (initial : Delivered) : Checked AcceptedCohort := do
  let row ← orRefuse (coordinator.receipts.get? (wireRootId, initial.reference.seq))
    (.identityConflict "cohort acknowledgement is absent or unsealed")
  require (row.initial = initial)
    (.identityConflict "sealed cohort acknowledgement conflicts with committed bus")
  let expected ← initial.expectedAssignments identify row.acceptedAt
  let receipt := CohortReceipt.forDelivery wireRootId initial row.acceptedAt expected
  require (row.members = receipt.members)
    (.identityConflict "sealed K claim members conflict with committed bus")
  require (row.deliveries = receipt.deliveries)
    (.identityConflict "sealed N delivery rows conflict with committed bus")
  let assignments ← expected.mapM fun accepted => do
    let actual ← orRefuse (coordinator.store.wakeClaims.get? accepted.assignmentId)
      (.identityConflict "sealed cohort claim is missing")
    accepted.requireSameAcceptance actual
    pure actual
  require (∀ member ∈ initial.recipients, member.2.claims = true ∨
      coordinator.store.claimsAt member.1.recipientLookup initial.reference.seq = [])
    (.identityConflict "no-wake observer has a conflicting unbound claim")
  pure ⟨wireRootId, initial.reference.seq, initial.reference.messageId,
    initial.recipients.length, expected.length, row.acceptedAt, assignments⟩

/-- `for_recipients`: every bridge's attempt on this original for the expected claims. -/
def attemptsFor (initial : Delivered) (expected : List WakeAssignment) : List HarnessDelivery :=
  coordinator.harness.selectBy (fun row => toLex (row.recipientLookup, row.bridge)) fun row =>
    row.reference == initial.reference &&
      expected.any fun claim => claim.recipientLookup == row.recipientLookup

/-- The writes of `AcceptedCohort.record` for a delivery not yet acknowledged. -/
def recordNewCohort (clock : Clock) (readings : Readings)
    (identify : Identify) (wireRootId : String) (initial : Delivered)
    (coordinator : Coordinator) : Checked (Coordinator × Applied AcceptedCohort) := do
  require (∀ claim ∈ coordinator.store.wakeClaims.values, claim.wireSeq ≠ initial.reference.seq)
    (.identityConflict "singleton claim cannot be adopted by a cohort")
  require (∀ receipt ∈ coordinator.receipts.values, receipt.wireSeq ≠ initial.reference.seq)
    (.identityConflict "wire sequence already belongs to another cohort root")
  require (∀ member ∈ initial.recipients,
      (coordinator.store.participants.get? member.1.recipientLookup).isSome = true)
    (.identityConflict "frozen recipient has no durable participant identity")
  let acceptedAt := clock.now .created 0
  let expected ← initial.expectedAssignments identify acceptedAt
  let receipts ← Store.accepted "claim_batch_receipts" (coordinator.receipts.insert?
    (CohortReceipt.forDelivery wireRootId initial acceptedAt expected))
  let store ← expected.foldlM Store.insertWakeClaim coordinator.store
  -- A bridge may have attempted this original before acceptance created its claims.
  let store ← (coordinator.attemptsFor initial expected).foldlM (settleClaims readings) store
  let accepted ← { coordinator with store, receipts }.claimRecord identify wireRootId initial
  pure ({ coordinator with store, receipts }, .applied accepted)

/-- `AcceptedCohort.record` in its acceptance transaction. -/
def recordCohort (clock : Clock) (readings : Readings)
    (identify : Identify) (wireRootId : String) (initial : Delivered) :
    Coordinator → Checked (Coordinator × Applied AcceptedCohort) :=
  writing fun coordinator =>
    match coordinator.receipts.get? (wireRootId, initial.reference.seq) with
    | some _ => do
        let accepted ← coordinator.claimRecord identify wireRootId initial
        pure (coordinator, .alreadyApplied accepted)
    | none => recordNewCohort clock readings identify wireRootId initial coordinator

/-! ### Pending work -/

/-- The claim is a member of a sealed cohort and its delivery selects it. -/
def sealedMember (claim : WakeAssignment) : Bool :=
  coordinator.receipts.values.any fun receipt =>
    receipt.members.any (·.1 == claim.assignmentId) &&
      receipt.deliveries.any (·.2 == some claim.assignmentId)

/-- The acknowledged pending claims of a recipient, in their order. -/
def sealedPending (lookup : ThreadLookup) : List WakeAssignment :=
  coordinator.store.wakeClaims.selectBy (fun claim => toLex (claim.wireSeq, claim.assignmentId))
    fun claim => claim.recipientLookup == lookup && claim.lifecycle.selectedPending &&
      coordinator.sealedMember claim

/-- Pages of one hundred until one is short. -/
def pendingSealedAssignments (lookup : ThreadLookup) (afterSeq : Nat) : List WakeAssignment :=
  shortPages WakeAssignment.wireSeq 100 (coordinator.sealedPending lookup)
    ((coordinator.sealedPending lookup).length + 1) afterSeq

end Coordinator

end AgentComms.Coordination
