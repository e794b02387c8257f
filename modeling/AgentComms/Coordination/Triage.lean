import AgentComms.Coordination.Cohorts

/-!
# Native sends

A stage is the claims a process captured for one native input: a triage ask, or the input
of an execution attempt. Reserving an input, recording its send grant, acknowledging its
context and settling a triage answer are one transaction each; every one but the
reservation names the stage and the input again, as its caller captured them.
-/

namespace AgentComms.Coordination

open Library
open Inputs (NativeContextProof InputError)

namespace AssignmentState

def requiresSelectedTriage (state : AssignmentState) : Checked Bool :=
  match state with
  | triagePending => .ok true
  | _ => do
      require (state.mode ≠ .active .boundedTriage ∨
          (state.kind = .deferred ∧ state.executionId.isSome))
        (.identityConflict "pending claim wake decision is not executable")
      pure false

/-- `DeferredAssignment.build(mode, None, None)`: an unbound deferred claim. -/
def isDeferredUnbound (state : AssignmentState) : Bool :=
  state.kind == .deferred && state.executionId.isNone

end AssignmentState

/-- `ParticipantOwner`. `live` is what its thread's process and role decide. -/
structure ParticipantOwner where
  lookup : ThreadLookup
  generation : Nat
  live : Checked Unit

def ParticipantOwner.requireIn (owner : ParticipantOwner) (store : Store) (lookup : ThreadLookup) :
    Checked Unit := do
  let participant ← store.participant lookup
  require (participant.committed ∧ participant.ownerIdentity = ⟨lookup, owner.generation⟩)
    (.staleFence "cohort participant generation changed")
  require (owner.lookup = lookup) (.staleFence "cohort participant incarnation changed")
  owner.live

/-! ### Claim checks -/

/-- The rules of `NativeClaimCheck`: what must not have changed, with its refusal. -/
def nativeClaimRules (captured current : WakeAssignment) : List (Bool × String) :=
  [(current.recipient == captured.recipient,
      "native_claim_recipient: The selected claim recipient changed."),
    (current.recipientLookup == captured.recipientLookup,
      "native_claim_lookup: The selected claim recipient lookup changed."),
    (current.wireSeq == captured.wireSeq,
      "native_claim_sequence: The selected claim source sequence changed."),
    (current.messageId == captured.messageId,
      "native_claim_message: The selected claim committed message changed."),
    (current.lifecycle.mode == captured.lifecycle.mode,
      "native_claim_mode: The selected claim wake mode changed.")]

/-- The captured claims; a full stage holds its attempt's fence. -/
inductive NativeSendStage where
  | triage (assignments : List WakeAssignment)
  | full (assignments : List WakeAssignment) (fence : OwnerFence)

namespace NativeSendStage

def assignments : NativeSendStage → List WakeAssignment
  | triage assignments | full assignments _ => assignments

def execution : NativeSendStage → NativeInputExecution
  | triage _ => .triage
  | full _ fence => .full fence.executionId fence.attemptOrdinal

variable (stage : NativeSendStage)

def assignmentIds : List AssignmentId :=
  stage.assignments.map WakeAssignment.assignmentId

def recipientLookup (stage : NativeSendStage) : Checked ThreadLookup :=
  match (stage.assignments.map WakeAssignment.recipientLookup).dedup with
  | [lookup] => .ok lookup
  | _ => .error (.identityConflict "Native batch requires one original participant")

/-- A triage claim is where its reservation left it; a full one runs its first prompt. -/
def requirePhase (store : Store) (captured current : WakeAssignment) : Checked Unit :=
  match stage with
  | triage _ => require (current.lifecycle.isDeferredUnbound ∧
        current.revision = captured.revision + 1)
      (.staleFence "triage claim changed before native send")
  | full _ fence => do
      let (snapshot, attempt) ← store.requireFence fence
      require (current.lifecycle.kind = .engaged)
        (.identityConflict "wake assignment is not engaged")
      require (snapshot.execution.lifecycle.kind = .active ∧
          attempt.lifecycle.kind = .live .promptStarting ∧
          attempt.lifecycle.backendDone = false ∧ attempt.lifecycle.processDead = false)
        (.staleFence "full execution is not running before native send")

def requireClaim (store : Store) : Checked Unit :=
  stage.assignments.forM fun captured => do
    let current ← store.assignment captured.assignmentId
    (nativeClaimRules captured current).forM fun rule => require (rule.1 = true)
      (.staleFence ("selected claim identity changed before native send: " ++ rule.2))
    stage.requirePhase store captured current

def requireSources (coordinator : Coordinator) (inputId : InputId) : Checked Unit :=
  require (coordinator.sourceAssignmentIds stage.execution inputId = stage.assignmentIds)
    (.identityConflict "Native input changed its original source membership")

/-- `NativeInputIdentityRule`. -/
def identifies (owner : ParticipantOwner) (lookup : ThreadLookup)
    (row : NativeRuntimeInput) : Bool :=
  row.execution == stage.execution && row.ownerLookup == lookup &&
    row.ownerGeneration == owner.generation

def identityViolation : String :=
  "native_input_identity: " ++
    "The original native input assignment, stage, attempt or owner changed."

def pendingInput (owner : ParticipantOwner) (inputId : InputId)
    (tokenDigest : String) (coordinator : Coordinator) : Checked NativeRuntimeInput := do
  let lookup ← stage.recipientLookup
  owner.requireIn coordinator.store lookup
  let row ← orRefuse (coordinator.natives.get? inputId)
    (.staleFence "native input reservation is missing")
  stage.requireSources coordinator inputId
  require (stage.identifies owner lookup row)
    (.staleFence ("native dispatch identity changed: " ++ identityViolation))
  require (row.ownerTokenDigest = tokenDigest)
    (.staleFence "native proof belongs to a different dispatch")
  pure row

def requireAcknowledgement (store : Store) : Checked Unit :=
  match stage with
  | triage _ => stage.requireClaim store
  | full assignments fence => do
      let (snapshot, _) ← store.requireFence fence
      assignments.forM fun assignment => do
        let engagement ← orRefuse (assignment.lifecycle.engagement?.filter fun _ =>
          assignment.lifecycle.kind == .engaged) (.identityConflict "wake assignment is not engaged")
        discard (snapshot.requireWireResponse engagement.exactTarget)

end NativeSendStage

/-! ### Reservations -/

namespace Coordinator

variable (coordinator : Coordinator)

/-- A full input refers to its execution and is the only one of its attempt. -/
def acceptsExecution : NativeInputExecution → Bool
  | .triage => true
  | .full executionId ordinal => (coordinator.store.executions.get? executionId).isSome &&
      coordinator.natives.values.all fun row => row.execution != .full executionId ordinal

def insertNative (row : NativeRuntimeInput) : Checked Coordinator := do
  require ((coordinator.store.participants.get? row.ownerLookup).isSome ∧
    coordinator.acceptsExecution row.execution) (.refusedStatement "native_runtime_input")
  let natives ← Store.accepted "native_runtime_input" (coordinator.natives.insert? row)
  pure { coordinator with natives }

def insertTriageSource (row : TriageNativeSource) : Checked Coordinator := do
  require (((coordinator.natives.get? row.inputId).any fun input =>
        input.execution == .triage &&
          (coordinator.store.wakeClaims.get? row.assignmentId).any fun claim =>
            claim.recipientLookup == input.ownerLookup) ∧
      row.ordinal = (coordinator.triageMembers row.inputId).length)
    (.refusedStatement "native_runtime_triage_members")
  require (∀ other ∈ coordinator.triageSources.values,
      (other.assignmentId, other.attempt) ≠ (row.assignmentId, row.attempt))
    (.identityConflict "Native input membership must name distinct original sources")
  let triageSources ← Store.accepted "native_runtime_triage_members"
    (coordinator.triageSources.insert? row)
  pure { coordinator with triageSources }

variable (clock : Clock)

/-- One claim of `TriageNativeSend.reserve_claim`: the original ask, or the one
replacement an unparseable decision earns. -/
def reserveTriageClaim (attempt : Nat) (triageSources : Table TriageNativeSource)
    (store : Store) (captured : WakeAssignment) : Checked Store := do
  let current ← store.assignment captured.assignmentId
  require (current = captured)
    (.identityConflict "triage claim changed before native batch reservation")
  let triage ← current.lifecycle.requiresSelectedTriage
  require triage (.identityConflict "triage claim changed before native batch reservation")
  require (∀ source ∈ triageSources.values,
      ¬ (source.assignmentId = captured.assignmentId ∧ attempt ≤ source.attempt))
    (.identityConflict "triage source was previously reserved; no second replacement")
  require ((store.wakeClaims.get? captured.assignmentId).any fun row =>
      row.revision == current.revision && row.lifecycle.kind == .triagePending)
    (.identityConflict "triage batch reservation lost an original claim CAS")
  let lifecycle ← AssignmentKind.deferred.build current.lifecycle.mode none none
  store.updateWakeClaim captured.assignmentId
    (fun row => row.revision == current.revision && row.lifecycle.kind == .triagePending)
    lifecycle (current.revision + 1)
    (clock.now (.assignment captured.assignmentId) current.updatedAt)

/-- Fence this stage and reject any previous dispatch. -/
def reserveClaim (stage : NativeSendStage) (attempt : Nat)
    (coordinator : Coordinator) : Checked Store :=
  match stage with
  | .triage assignments => do
      require (attempt = 0 ∨ attempt = 1)
        (.identityConflict "A triage claim has one original ask and one replacement")
      assignments.foldlM (reserveTriageClaim clock attempt coordinator.triageSources)
        coordinator.store
  | .full assignments fence => do
      require (attempt = 0) (.identityConflict "Only a triage input has a replacement attempt")
      let (snapshot, _) ← coordinator.store.requireFence fence
      stage.requireClaim coordinator.store
      require (1 ≤ snapshot.pointerRevision ∧ assignments = snapshot.assignments)
        (.staleFence "full input cannot bind to the current attempt")
      require (∀ row ∈ coordinator.natives.values, row.execution ≠ stage.execution)
        (.identityConflict "this execution attempt already has a native input")
      pure coordinator.store

def recordSources (stage : NativeSendStage) (inputId : InputId) (attempt : Nat)
    (coordinator : Coordinator) : Checked Coordinator :=
  match stage with
  | .triage assignments => do
      require (assignments ≠ [])
        (.identityConflict "Native input membership names at least one original source")
      assignments.zipIdx.foldlM (fun coordinator member =>
        coordinator.insertTriageSource ⟨inputId, member.2, member.1.assignmentId, attempt⟩)
        coordinator
  | .full _ _ => do
      require (coordinator.sourceAssignmentIds stage.execution inputId = stage.assignmentIds)
        (.identityConflict "Full native input differs from its original execution membership")
      pure coordinator

/-- `NativeSendStage.reserve`; `inputId` is the minted one. -/
def reserveNative (stage : NativeSendStage) (owner : ParticipantOwner)
    (tokenDigest : String) (attempt : Nat) (inputId : InputId) :
    Coordinator → Checked (Coordinator × InputId) :=
  writing fun coordinator => do
    let lookup ← stage.recipientLookup
    owner.requireIn coordinator.store lookup
    let store ← reserveClaim clock stage attempt coordinator
    let coordinator ← { coordinator with store }.insertNative
      { inputId, execution := stage.execution, ownerLookup := lookup
        ownerGeneration := owner.generation, ownerTokenDigest := tokenDigest
        sent := none, context := none, verdict := none }
    let coordinator ← recordSources stage inputId attempt coordinator
    pure (coordinator, inputId)

/-! ### The send grant and the context -/

def updateNative (inputId : InputId)
    (selects : NativeRuntimeInput → Bool) (edit : NativeRuntimeInput → NativeRuntimeInput) :
    Checked Coordinator := do
  let natives ← Store.accepted "native_runtime_input"
    (coordinator.natives.update? inputId selects edit)
  pure { coordinator with natives }

/-- The rules of `NativeReservationCheck`. -/
def reservationRules (stage : NativeSendStage) (owner : ParticipantOwner) (lookup : ThreadLookup)
    (tokenDigest : String) (row : NativeRuntimeInput) : List (Bool × String) :=
  [(stage.identifies owner lookup row, NativeSendStage.identityViolation),
    (row.ownerTokenDigest == tokenDigest, "native_token: The reserved native input token changed."),
    (row.sent.isNone,
      "native_already_bound: The native input was already bound to a sending claim_scope."),
    (row.context.isNone,
      "native_already_proven: The native input already has a proven session result."),
    (row.verdict.isNone,
      "native_already_decided: The native triage input already has a verdict.")]

/-- The database part of `PrivateSendClaim`'s grant. `registry` is what the registry
decides about the captured owner. -/
def grantSend (stage : NativeSendStage) (owner : ParticipantOwner) (inputId : InputId)
    (tokenDigest : String) (grant : SendGrant) (registry : Checked Unit) :
    Coordinator → Checked (Coordinator × Unit) :=
  writing fun coordinator => do
    registry
    let lookup ← stage.recipientLookup
    owner.requireIn coordinator.store lookup
    let row ← orRefuse (coordinator.natives.get? inputId)
      (.staleFence "native reservation missing before send")
    stage.requireSources coordinator inputId
    (reservationRules stage owner lookup tokenDigest row).forM fun rule => require (rule.1 = true)
      (.staleFence ("native reservation changed before send: " ++ rule.2))
    stage.requireClaim coordinator.store
    let coordinator ← coordinator.updateNative inputId (fun row => row.sent.isNone)
      fun row => { row with sent := some grant }
    pure (coordinator, ())

def contextRefusal : InputError → CoordinationError
  | .identityConflict text => .identityConflict text
  | .relationViolation text => .relationViolation text
  | .inputAlreadyCleared text | .valueError text => .valueError text
  | .registry _ => .relationViolation "registry"

/-- `NativeContextReference.acknowledge_context`: the first context is immutable, and a
later one must continue it. -/
def acknowledgeFirst (row : NativeRuntimeInput) (context : NativeContextProof)
    (coordinator : Coordinator) : Checked Coordinator :=
  match row.context with
  | none => coordinator.updateNative row.inputId (fun row => row.context.isNone)
      fun row => { row with context := some context }
  | some first => do
      (first.requireContinuation context).mapError contextRefusal
      pure coordinator

def commitContext (row : NativeRuntimeInput) (context : NativeContextProof)
    (coordinator : Coordinator) : Checked Coordinator := do
  require (context.inputId = row.inputId)
    (.staleFence "native context belongs to another reserved input")
  let grant ← orRefuse row.sent
    (.identityConflict "Native input has no recorded selected session")
  require (grant.session = ⟨context.sessionId, context.sessionFile⟩)
    (.valueError "Native saved source identity changed")
  acknowledgeFirst row context coordinator

def acknowledgeContext (stage : NativeSendStage) (owner : ParticipantOwner) (inputId : InputId)
    (tokenDigest : String) (context : NativeContextProof) :
    Coordinator → Checked (Coordinator × Unit) :=
  writing fun coordinator => do
    let row ← stage.pendingInput owner inputId tokenDigest coordinator
    stage.requireAcknowledgement coordinator.store
    let coordinator ← commitContext row context coordinator
    pure (coordinator, ())

/-- The first transaction of `FullNativeSend.fail_terminal`; the settlement of the attempt
follows in its own. -/
def failTerminalContext (assignments : List WakeAssignment) (fence : OwnerFence)
    (owner : ParticipantOwner) (inputId : InputId) (tokenDigest : String)
    (context : NativeContextProof) : Coordinator → Checked (Coordinator × Unit) :=
  writing fun coordinator => do
    let row ← (NativeSendStage.full assignments fence).pendingInput owner inputId tokenDigest
      coordinator
    let _ ← coordinator.store.requireFence fence
    let coordinator ← commitContext row context coordinator
    pure (coordinator, ())

/-! ### Settling a triage answer -/

/-- The checks and the context write that open `commit`, `burn_turn` and `fail_decision`. -/
def openAnswer (assignments : List WakeAssignment) (owner : ParticipantOwner)
    (inputId : InputId) (tokenDigest : String) (context : NativeContextProof)
    (coordinator : Coordinator) : Checked Coordinator := do
  let row ← (NativeSendStage.triage assignments).pendingInput owner inputId tokenDigest coordinator
  (NativeSendStage.triage assignments).requireClaim coordinator.store
  commitContext row context coordinator

def settleVerdict (inputId : InputId) (verdict : SelectedTriage) (coordinator : Coordinator) :
    Checked Coordinator := do
  let current ← orRefuse (coordinator.natives.get? inputId)
    (.identityConflict "native runtime input is missing")
  require current.context.isSome (.identityConflict "Native input has no recorded context")
  require current.verdict.isNone (.valueError "A full native input records no triage verdict")
  coordinator.updateNative inputId (fun row => row.verdict.isNone)
    fun row => { row with verdict := some verdict }

/-- `SelectedTriage.settle` of one claim: both edges of an ignored claim stay in one
transaction, and an engaging one stays deferred until its execution takes it. -/
def settleDecision (readings : Readings) (decision : SelectedTriage) (store : Store)
    (captured : WakeAssignment) : Checked Store :=
  match decision with
  | .full => do
      let _ ← store.assignment captured.assignmentId
      pure store
  | .ignore => do
      let current ← store.assignment captured.assignmentId
      let now := (readings .triagePending).now (.assignment current.assignmentId) current.updatedAt
      let store ← store.updateWakeClaim current.assignmentId (fun _ => true) .triagePending
        (current.revision + 1) now
      store.updateWakeClaim current.assignmentId (fun _ => true) .ignored (current.revision + 2)
        ((readings .ignored).now (.assignment current.assignmentId) now)

def commitTriage (readings : Readings) (assignments : List WakeAssignment)
    (owner : ParticipantOwner) (inputId : InputId) (tokenDigest : String)
    (context : NativeContextProof) (decision : SelectedTriage) :
    Coordinator → Checked (Coordinator × List WakeAssignment) :=
  writing fun coordinator => do
    let coordinator ← openAnswer assignments owner inputId tokenDigest context coordinator
    let coordinator ← settleVerdict inputId decision coordinator
    let store ← assignments.foldlM (settleDecision readings decision) coordinator.store
    let settled ← assignments.mapM fun captured => store.assignment captured.assignmentId
    pure ({ coordinator with store }, settled)

/-- One claim of `burn_turn`: it owes a decision again. -/
def burnClaim (store : Store) (captured : WakeAssignment) : Checked Store := do
  let current ← store.assignment captured.assignmentId
  store.updateWakeClaim current.assignmentId (·.revision == current.revision) .triagePending
    (current.revision + 1) (clock.now (.assignment current.assignmentId) current.updatedAt)

/-- Close the answer and leave the claims owing a decision. -/
def burnTurn (assignments : List WakeAssignment) (owner : ParticipantOwner)
    (inputId : InputId) (tokenDigest : String) (context : NativeContextProof) :
    Coordinator → Checked (Coordinator × Unit) :=
  writing fun coordinator => do
    let coordinator ← openAnswer assignments owner inputId tokenDigest context coordinator
    let store ← assignments.foldlM (burnClaim clock) coordinator.store
    pure ({ coordinator with store }, ())

def failClaim (store : Store) (captured : WakeAssignment) : Checked Store := do
  let current ← store.assignment captured.assignmentId
  require current.lifecycle.isDeferredUnbound
    (.staleFence "failed triage claim is no longer deferred")
  let lifecycle ← current.lifecycle.preengagement .failed
  store.updateWakeClaim current.assignmentId (·.revision == current.revision) lifecycle
    (current.revision + 1) (clock.now (.assignment current.assignmentId) current.updatedAt)

def failDecision (assignments : List WakeAssignment) (owner : ParticipantOwner)
    (inputId : InputId) (tokenDigest : String) (context : NativeContextProof) :
    Coordinator → Checked (Coordinator × List WakeAssignment) :=
  writing fun coordinator => do
    let coordinator ← openAnswer assignments owner inputId tokenDigest context coordinator
    let store ← assignments.foldlM (failClaim clock) coordinator.store
    let failed ← assignments.mapM fun captured => store.assignment captured.assignmentId
    pure ({ coordinator with store }, failed)

/-- Engage exactly the claims the proof commit returned. -/
def createAfterTriage (executionId : ExecutionId) (origin : Origin)
    (ownerLookup : ThreadLookup) (maxAttempts : Nat) (sources : List SelectedSource)
    (settled : List WakeAssignment) (coordinator : Coordinator) :
    Checked (Coordinator × Applied RecoverySnapshot) := do
  let assignments ← sources.mapM coordinator.store.sourceAssignment
  require (assignments = settled)
    (.staleRevision "original claims changed after proved native settlement")
  let (store, result) ← coordinator.store.create clock executionId origin ownerLookup maxAttempts
    sources
  pure ({ coordinator with store }, result)

end Coordinator

end AgentComms.Coordination
