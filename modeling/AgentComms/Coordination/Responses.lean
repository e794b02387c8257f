import AgentComms.Coordination.Operations

/-!
# Response publication

A reply is frozen as an intent, dispatched by a durable row, appended to the bus
and acknowledged. These are the coordinator's transactions of that protocol;
`ResponseBoundary` is what the registry and the bus answer while one runs.
-/

namespace AgentComms.Coordination

open Library

structure ResponseBoundary where
  wireRootId : String
  recipientLookup : ThreadLookup
  /-- The registry revision is current and the witnessed owner is live in it. -/
  live : Checked Unit
  /-- `_require_cohort_assignments`. -/
  cohort : RecoverySnapshot → Checked Unit
  /-- The registry resolves the intent's sender to the execution's owner. -/
  ownsSender : PublicationIntent → ThreadLookup → Bool
  /-- `published_message`: the durable row with the intent's key and content. -/
  published : PublicationIntent → Checked (Option Message)
  /-- Releasing the attempt's resources. -/
  release : Checked Unit

/-- The reply a caller proposes; `identify` is the digest of the message at a time. -/
structure ReplyDraft where
  sender : String
  payload : String
  kind : MessageKind
  role : MessageRole
  timestamp : Option Nat
  writtenAt : Nat
  answers : List MessageReference
  identify : Nat → MessageId

def ReplyDraft.message (draft : ReplyDraft) (exactTarget : String) (timestamp : Nat) : Message :=
  { sender := draft.sender, target := exactTarget, body := draft.payload, kind := draft.kind
    timestamp, role := draft.role, answers := draft.answers, messageId := draft.identify timestamp }

namespace RecoverySnapshot

variable (snapshot : RecoverySnapshot)

def requireWireResponse (exactTarget : String) : Checked ResponseObligation := do
  discard snapshot.requireWireResponses
  orRefuse (snapshot.obligationFor exactTarget)
    (.identityConflict "response route is absent from original obligations")

def requireFinalResponse (recipientLookup : ThreadLookup)
    (exactTarget : String) : Checked ResponseObligation := do
  require (snapshot.execution.ownerLookup = recipientLookup)
    (.staleFence "response turn belongs to a different SQL recipient")
  require (snapshot.execution.lifecycle.kind = .active) .responseClaimBlocked
  let attempt ← snapshot.requireAttempt
  require (attempt.lifecycle.kind = .live .settling ∧ attempt.lifecycle.backendDone ∧
    attempt.lifecycle.processDead) .responseClaimBlocked
  snapshot.requireWireResponse exactTarget

def requirePublishingIntent (exactTarget : String) (boundary : ResponseBoundary) :
    Checked (PublicationIntent × ResponseObligation) := do
  let owed ← snapshot.requireWireResponses
  require (snapshot.publicationIntents.length = owed.length)
    (.identityConflict "all original response bodies must be frozen before first append")
  let obligation ← snapshot.requireWireResponse exactTarget
  require (obligation.lifecycle.kind = .publishing)
    (.identityConflict "no frozen publishing intent for current owner")
  let intent ← orRefuse ((snapshot.intentFor exactTarget).filter fun intent =>
      boundary.ownsSender intent snapshot.execution.ownerLookup)
    (.identityConflict "no frozen publishing intent for current owner")
  pure (intent, obligation)

end RecoverySnapshot

namespace Store

def requireFinalOwner (store : Store) (fence : OwnerFence) (boundary : ResponseBoundary)
    (exactTarget : String) : Checked RecoverySnapshot := do
  let (snapshot, _) ← store.requireFence fence
  discard (snapshot.requireFinalResponse boundary.recipientLookup exactTarget)
  boundary.cohort snapshot
  pure snapshot

variable (clock : Clock)

def freezeReply (draft : ReplyDraft) (snapshot : RecoverySnapshot)
    (exactTarget : String) (obligation : ResponseObligation) (store : Store) :
    Checked (Store × Applied PublicationIntent) := do
  require (obligation.lifecycle.kind = .pending)
    (.identityConflict "response obligation cannot prepare a new intent")
  let message := draft.message exactTarget (draft.timestamp.getD draft.writtenAt)
  let intent : PublicationIntent :=
    { executionId := snapshot.execution.executionId, exactTarget, message
      publicationKey := canonicalPublicationKey snapshot.execution.executionId exactTarget
      expectedMessageId := message.messageId }
  let store ← store.insertPublicationIntent intent
  let store ← store.updateObligation snapshot.execution.executionId exactTarget
    (fun row => row.lifecycle.kind == .pending && row.revision == obligation.revision)
    fun row => { row with
      lifecycle := .publishing
      revision := obligation.revision + 1
      updatedAt := clock.now (.obligation exactTarget) obligation.updatedAt }
  pure (store, .applied intent)

def prepareFencedResponse (fence : OwnerFence) (exactTarget : String)
    (draft : ReplyDraft) (boundary : ResponseBoundary) :
    Store → Checked (Store × Applied PublicationIntent) :=
  writing fun store => do
    require (draft.payload ≠ "") (.valueError "response payload must be nonempty")
    boundary.live
    let snapshot ← store.requireFinalOwner fence boundary exactTarget
    let obligation ← snapshot.requireWireResponse exactTarget
    match snapshot.intentFor exactTarget with
    | some existing => do
        require (obligation.lifecycle.kind = .publishing ∧ existing.message =
            draft.message exactTarget (draft.timestamp.getD existing.message.timestamp))
          (.identityConflict "prepared response envelope conflicts")
        pure (store, .alreadyApplied existing)
    | none => freezeReply clock draft snapshot exactTarget obligation store

/-- The checks of a finished acknowledgement against its durable row. -/
def finishedReplay (fence : OwnerFence) (exactTarget : String) (boundary : ResponseBoundary)
    (snapshot : RecoverySnapshot) (acknowledgement : PublicationEvidence) :
    Checked RecoverySnapshot := do
  require (snapshot.execution.ownerLookup = boundary.recipientLookup)
    (.staleFence "finished response belongs to a different SQL recipient")
  let attempt ← snapshot.requireAttempt
  require (attempt.authority = fence.authority)
    (.staleFence "finished response is not this owner's original attempt")
  let intent ← orRefuse (snapshot.intentFor exactTarget)
    (.staleFence "response route has no frozen publication evidence")
  boundary.cohort snapshot
  let matched ← boundary.published intent
  require (matched.map Message.reference = some ⟨acknowledgement.seq, acknowledgement.messageId⟩)
    (.publicationUncertain "published SQL acknowledgement has no exact durable bus row")
  pure snapshot

/-- A finished acknowledgement may be read again, never published. -/
def terminalReplay (store : Store) (fence : OwnerFence) (exactTarget : String)
    (boundary : ResponseBoundary) : Checked (Option RecoverySnapshot) := do
  let snapshot ← store.get fence.executionId
  match snapshot.evidenceFor exactTarget with
  | none => pure none
  | some acknowledgement =>
    some <$> finishedReplay fence exactTarget boundary snapshot acknowledgement

def dispatchFor (fence : OwnerFence) (exactTarget : String)
    (boundary : ResponseBoundary) (snapshot : RecoverySnapshot) : PublicationAppendDispatch :=
  { executionId := fence.executionId, exactTarget, wireRootId := boundary.wireRootId
    ownerGeneration := fence.ownerGeneration, attemptOrdinal := fence.attemptOrdinal
    dispatchedAt := clock.now .dispatched snapshot.execution.updatedAt }

/-- Insert the first dispatch, or require the stored one to be this call's. -/
def dispatchOnce (fence : OwnerFence) (exactTarget : String)
    (boundary : ResponseBoundary) (snapshot : RecoverySnapshot) (store : Store) :
    Checked (Store × Bool) :=
  match store.appendDispatches.get? (fence.executionId, exactTarget) with
  | none => do
      let store ← store.insertAppendDispatch
        (dispatchFor clock fence exactTarget boundary snapshot)
      pure (store, true)
  | some prior => do
      require (prior.matchesAttempt boundary.wireRootId fence.executionId fence.ownerGeneration
          fence.attemptOrdinal exactTarget)
        (.identityConflict "response dispatch belongs to another root or owner")
      pure (store, false)

/-- The first transaction of `publish_fenced_response`: the dispatch barrier. It
answers `some true` exactly when this call inserted the dispatch row, and `none`
when the reply was already acknowledged. -/
def dispatchFencedResponse (fence : OwnerFence) (exactTarget : String)
    (boundary : ResponseBoundary) : Store → Checked (Store × Option Bool) :=
  writing fun store => do
    boundary.live
    match ← store.terminalReplay fence exactTarget boundary with
    | some _ => pure (store, none)
    | none => do
        let snapshot ← store.requireFinalOwner fence boundary exactTarget
        discard (snapshot.requirePublishingIntent exactTarget boundary)
        let (store, first) ← dispatchOnce clock fence exactTarget boundary snapshot store
        pure (store, some first)

def complete (dispatch : PublicationAppendDispatch)
    (boundary : ResponseBoundary) (snapshot : RecoverySnapshot) (intent : PublicationIntent)
    (obligation : ResponseObligation) (matched : Message) (store : Store) :
    Checked (Store × RecoverySnapshot) := do
  let attempt ← snapshot.requireCurrentAttempt
  require (dispatch.matchesAttempt dispatch.wireRootId snapshot.execution.executionId
      attempt.ownerGeneration attempt.attemptOrdinal intent.exactTarget)
    (.identityConflict "response dispatch belongs to another root or owner")
  let store ← store.insertPublicationReceipt
    { executionId := intent.executionId, exactTarget := intent.exactTarget
      seq := matched.seq, messageId := matched.messageId
      receivedAt := clock.now .acknowledged
        (max snapshot.execution.updatedAt attempt.updatedAt) }
  let store ← store.updateObligation intent.executionId intent.exactTarget
    (·.revision == obligation.revision) fun row => { row with
      lifecycle := .published matched.messageId matched.seq
      revision := obligation.revision + 1
      updatedAt := clock.now (.obligation intent.exactTarget) obligation.updatedAt }
  let current ← store.get intent.executionId
  let store ← current.finishPublications clock boundary.release store
  let after ← store.get intent.executionId
  pure (store, after)

/-- What the second transaction decided on before it appends or acknowledges. -/
structure SettlementBasis where
  snapshot : RecoverySnapshot
  intent : PublicationIntent
  obligation : ResponseObligation
  dispatch : PublicationAppendDispatch
  matched : Option Message

/-- The second transaction of `publish_fenced_response` up to its append: `none` when
the reply was already acknowledged. -/
def settlementBasis (store : Store) (fence : OwnerFence) (exactTarget : String)
    (boundary : ResponseBoundary) : Checked (Option SettlementBasis) := do
  boundary.live
  match ← store.terminalReplay fence exactTarget boundary with
  | some _ => pure none
  | none => do
      let snapshot ← store.requireFinalOwner fence boundary exactTarget
      let (intent, obligation) ← snapshot.requirePublishingIntent exactTarget boundary
      let dispatch ← orRefuse ((store.appendDispatches.get? (fence.executionId, exactTarget)).filter
          fun dispatch => dispatch.matchesAttempt boundary.wireRootId fence.executionId
            fence.ownerGeneration fence.attemptOrdinal exactTarget)
        (.publicationUncertain "no matching durable append dispatch")
      let matched ← boundary.published intent
      pure (some ⟨snapshot, intent, obligation, dispatch, matched⟩)

/-- The second transaction of `publish_fenced_response`, where `appended` is the row
its own append stored, if it made one. -/
def settleFencedResponse (fence : OwnerFence) (exactTarget : String)
    (boundary : ResponseBoundary) (appended : Option Message) :
    Store → Checked (Store × Option RecoverySnapshot) :=
  writing fun store => do
    match ← store.settlementBasis fence exactTarget boundary with
    | none => pure (store, none)
    | some basis => do
        let matched ← orRefuse (basis.matched.or appended)
          (.publicationUncertain "no keyed bus acknowledgement; no resend authorized")
        let (store, after) ← complete clock basis.dispatch boundary basis.snapshot basis.intent
          basis.obligation matched store
        pure (store, some after)

/-- The transaction of `resolve_retained` for one frozen route without a receipt. -/
def resolveRetained (executionId : ExecutionId) (exactTarget : String)
    (boundary : ResponseBoundary) : Store → Checked (Store × RecoverySnapshot) :=
  writing fun store => do
    boundary.live
    let snapshot ← store.get executionId
    boundary.cohort snapshot
    let (intent, obligation) ← snapshot.requirePublishingIntent exactTarget boundary
    let attempt ← snapshot.requireCurrentAttempt
    let dispatch ← orRefuse ((store.appendDispatches.get? (executionId, exactTarget)).filter
        fun dispatch => dispatch.matchesAttempt boundary.wireRootId executionId
          attempt.ownerGeneration attempt.attemptOrdinal exactTarget)
      (.publicationUncertain "no matching durable append dispatch")
    let found ← boundary.published intent
    let matched ← orRefuse found
      (.publicationUncertain "no keyed bus acknowledgement; no resend authorized")
    complete clock dispatch boundary snapshot intent obligation matched store

end Store

end AgentComms.Coordination
