import AgentComms.Library.Run

/-!
# Coordinator lifecycles

The states of executions, attempts, claims and response obligations, the edges
their declarations allow, and the facts a turn leaves about replaying it.
-/

namespace AgentComms.Coordination

open Library

abbrev ThreadLookup := String
abbrev ExecutionId := String
abbrev AssignmentId := String
abbrev MessageId := String

/-- Milliseconds. -/
abbrev Time := Nat

/-- The refusals of the coordinator. `refusedStatement` is SQLite's own refusal of
a write to a table: a constraint, a trigger or a foreign key. -/
inductive CoordinationError where
  | staleFence (message : String)
  | staleRevision (message : String)
  | identityConflict (message : String)
  | integrityViolation (message : String)
  | publicationUncertain (message : String)
  | recoveryBlocked (message : String)
  | responseClaimBlocked
  | participantNotRegistered (lookup : ThreadLookup)
  | relationViolation (message : String)
  | valueError (message : String)
  | refusedStatement (table : String)
deriving DecidableEq, Repr

abbrev Checked := Except CoordinationError

/-! ### Wake policies and claims -/

/-- The policies that may engage. -/
inductive ActiveWake where
  | boundedTriage | full
deriving DecidableEq, Repr

inductive WakePolicy where
  | passive
  | active (wake : ActiveWake)
deriving DecidableEq, Repr

structure Engagement where
  wake : ActiveWake
  executionId : ExecutionId
  exactTarget : String
  bound : executionId ≠ "" ∧ exactTarget ≠ ""
deriving DecidableEq

namespace Engagement

def mode (engagement : Engagement) : WakePolicy := .active engagement.wake

def verdict (engagement : Engagement) : Option String :=
  match engagement.wake with
  | .full => none
  | .boundedTriage => some "engage"

end Engagement

def WakePolicy.engage (policy : WakePolicy) (executionId exactTarget : Option String) :
    Checked Engagement :=
  match policy with
  | .passive => .error (.integrityViolation "passive claim cannot engage")
  | .active wake =>
    if hbound : executionId.getD "" ≠ "" ∧ exactTarget.getD "" ≠ "" then
      .ok ⟨wake, executionId.getD "", exactTarget.getD "", hbound⟩
    else .error (.integrityViolation "engaged claim requires execution and exact target")

def WakePolicy.pendingDecision (policy : WakePolicy) : Checked ActiveWake :=
  match policy with
  | .passive => .error (.integrityViolation "passive decision cannot be deferred or failed")
  | .active wake => .ok wake

/-- What an interrupted claim holds: its policy, or its engagement. -/
inductive Decision where
  | pending (wake : ActiveWake)
  | engaged (engagement : Engagement)
deriving DecidableEq

inductive AssignmentState where
  | passive
  | triagePending
  | fullPending
  | ignored
  | engaged (decision : Engagement)
  | completed (decision : Engagement)
  | deferred (decision : Decision)
  | delivered (decision : ActiveWake)
  | failed (decision : Decision)
deriving DecidableEq

inductive AssignmentKind where
  | passive | triagePending | fullPending | ignored
  | engaged | completed | deferred | delivered | failed
deriving DecidableEq, Repr

namespace AssignmentKind

def successors : AssignmentKind → List AssignmentKind
  | triagePending => [ignored, engaged, deferred, failed]
  | fullPending => [engaged, deferred, failed]
  | engaged => [completed, deferred, failed]
  | deferred => [triagePending, fullPending, engaged, delivered, failed]
  | passive | ignored | completed | delivered | failed => []

def build (mode : WakePolicy) (executionId exactTarget : Option String) :
    AssignmentKind → Checked AssignmentState
  | passive => .ok .passive
  | triagePending => .ok .triagePending
  | fullPending => .ok .fullPending
  | ignored => .ok .ignored
  | engaged => .engaged <$> mode.engage executionId exactTarget
  | completed => .completed <$> mode.engage executionId exactTarget
  | deferred => .deferred <$> interrupted
  | delivered => .delivered <$> mode.pendingDecision
  | failed => .failed <$> interrupted
where
  interrupted : Checked Decision :=
    match executionId with
    | none => .pending <$> mode.pendingDecision
    | some _ => .engaged <$> mode.engage executionId exactTarget

def buildPreengagement (mode : WakePolicy) (kind : AssignmentKind) : Checked AssignmentState :=
  match kind with
  | passive | engaged | completed =>
    .error (.identityConflict "preengagement transition is not declared")
  | triagePending | fullPending | ignored | deferred | delivered | failed =>
    kind.build mode none none

end AssignmentKind

namespace Decision

def mode : Decision → WakePolicy
  | pending wake => .active wake
  | engaged engagement => engagement.mode

def engagement? : Decision → Option Engagement
  | pending _ => none
  | engaged engagement => some engagement

end Decision

namespace AssignmentState

def kind : AssignmentState → AssignmentKind
  | passive => .passive
  | triagePending => .triagePending
  | fullPending => .fullPending
  | ignored => .ignored
  | engaged _ => .engaged
  | completed _ => .completed
  | deferred _ => .deferred
  | delivered _ => .delivered
  | failed _ => .failed

def isPending (state : AssignmentState) : Bool :=
  state.kind == .triagePending || state.kind == .fullPending

def mode : AssignmentState → WakePolicy
  | passive => .passive
  | triagePending => .active .boundedTriage
  | fullPending => .active .full
  | ignored => .active .boundedTriage
  | engaged decision | completed decision => decision.mode
  | deferred decision | failed decision => decision.mode
  | delivered wake => .active wake

def engagement? : AssignmentState → Option Engagement
  | engaged decision | completed decision => some decision
  | deferred decision | failed decision => decision.engagement?
  | passive | triagePending | fullPending | ignored | delivered _ => none

def executionId (state : AssignmentState) : Option ExecutionId :=
  state.engagement?.map Engagement.executionId

def exactTarget (state : AssignmentState) : Option String :=
  state.engagement?.map Engagement.exactTarget

def verdict : AssignmentState → Option String
  | ignored => some "ignore"
  | state => state.engagement?.bind Engagement.verdict

def requireEngageable : AssignmentState → Checked Unit
  | triagePending | fullPending | deferred _ => .ok ()
  | _ => .error (.identityConflict "claim cannot engage this execution")

/-- A declared step of an unbound claim that keeps its wake policy. -/
def preengagement (state : AssignmentState) (disposition : AssignmentKind) :
    Checked AssignmentState := do
  require (state.executionId = none ∧ disposition ∈ state.kind.successors)
    (.identityConflict "preengagement transition is not declared")
  let after ← disposition.buildPreengagement state.mode
  require (after.mode = state.mode)
    (.identityConflict "preengagement cannot change frozen wake policy")
  pure after

end AssignmentState

def WakePolicy.initialState : WakePolicy → AssignmentState
  | .passive => .passive
  | .active .boundedTriage => .triagePending
  | .active .full => .fullPending

/-! ### Response obligations -/

inductive ResponseState where
  | pending
  | publishing
  | deferred
  | published (messageId : MessageId) (seq : Nat)
  | silent
  | failed
deriving DecidableEq, Repr

inductive ResponseKind where
  | pending | publishing | deferred | published | silent | failed
deriving DecidableEq, Repr

namespace ResponseKind

def successors : ResponseKind → List ResponseKind
  | pending => [publishing, deferred, silent, failed]
  | publishing => [published, failed]
  | deferred => [pending, silent, failed]
  | published | silent | failed => []

def retryable : ResponseKind → Bool
  | pending | deferred => true
  | _ => false

def successful : ResponseKind → Bool
  | published | silent => true
  | _ => false

def allowsIntent : ResponseKind → Bool
  | publishing | published | failed => true
  | _ => false

def requiresIntent : ResponseKind → Bool
  | publishing | published => true
  | _ => false

end ResponseKind

def ResponseState.kind : ResponseState → ResponseKind
  | pending => .pending
  | publishing => .publishing
  | deferred => .deferred
  | published _ _ => .published
  | silent => .silent
  | failed => .failed

/-! ### Executions -/

inductive ExecutionState where
  | queued
  | pending
  | active (ordinal : Nat)
  | deferred (ordinal : Option Nat)
  | completed (ordinal : Nat)
  | failed (ordinal : Option Nat)
deriving DecidableEq, Repr

inductive ExecutionKind where
  | queued | pending | active | deferred | completed | failed
deriving DecidableEq, Repr

namespace ExecutionKind

def successors : ExecutionKind → List ExecutionKind
  | queued => [pending, failed]
  | pending => [active, deferred, failed]
  | active => [deferred, completed, failed]
  | deferred => [active, failed]
  | completed | failed => []

/-- The members of `StartsAttempt`. -/
def startsAttempt : ExecutionKind → Bool
  | pending | deferred => true
  | _ => false

def unstarted : ExecutionKind → Bool
  | queued | pending => true
  | _ => false

/-- The kind of every claim of the execution. -/
def assignmentState : ExecutionKind → AssignmentKind
  | queued | pending | active => .engaged
  | deferred => .deferred
  | completed => .completed
  | failed => .failed

end ExecutionKind

namespace ExecutionState

def kind : ExecutionState → ExecutionKind
  | queued => .queued
  | pending => .pending
  | active _ => .active
  | deferred _ => .deferred
  | completed _ => .completed
  | failed _ => .failed

def currentAttemptOrdinal : ExecutionState → Option Nat
  | queued | pending => none
  | active ordinal | completed ordinal => some ordinal
  | deferred ordinal | failed ordinal => ordinal

variable (state : ExecutionState)

/-- The ordinal an active execution must have after this state. -/
def nextAttemptOrdinal : Nat :=
  state.currentAttemptOrdinal.getD 0 + 1

/-- Only a start advances the ordinal, by one. -/
def acceptsPrevious (following previous : ExecutionState) : Bool :=
  match following with
  | active ordinal => previous.kind.startsAttempt && ordinal == previous.nextAttemptOrdinal
  | _ => following.currentAttemptOrdinal == previous.currentAttemptOrdinal

/-- `validate_budget` accepts the state. -/
def withinBudget (maximum : Nat) : Bool :=
  state.currentAttemptOrdinal.all (fun ordinal => 1 ≤ ordinal && ordinal ≤ maximum) &&
    match state with
    | deferred ordinal => ordinal.all (· < maximum)
    | _ => true

def hasRetryBudget (maximum : Nat) : Bool :=
  state.currentAttemptOrdinal.any (· < maximum)

end ExecutionState

/-! ### Attempts -/

inductive LivePhase where
  | promptStarting | promptAccepted | modelRunning | toolRunning | compaction
  | settling | modelStalled | aborting | retrying | providerUnavailable
deriving DecidableEq, Repr

inductive Outcome where
  | succeeded | attemptFailed | unknownOutcome
deriving DecidableEq, Repr

inductive AttemptKind where
  | live (phase : LivePhase)
  | terminal (outcome : Outcome)
deriving DecidableEq, Repr

namespace LivePhase

def successors : LivePhase → List LivePhase
  | promptStarting => [promptAccepted, providerUnavailable]
  | promptAccepted => [aborting, modelRunning, modelStalled]
  | modelRunning =>
    [aborting, compaction, modelStalled, providerUnavailable, settling, toolRunning]
  | toolRunning => [aborting, modelRunning, settling]
  | compaction => [aborting, modelRunning, modelStalled]
  | settling => []
  | modelStalled => [aborting]
  | aborting => [retrying]
  | retrying => [modelRunning, modelStalled, promptStarting, providerUnavailable]
  | providerUnavailable => [retrying]

def ends (phase : LivePhase) : Outcome → Bool
  | .succeeded => phase == settling
  | .attemptFailed | .unknownOutcome => true

end LivePhase

namespace Outcome

def failed : Outcome → Bool
  | succeeded => false
  | attemptFailed | unknownOutcome => true

/-- The members of `RetryPredecessor`. -/
def permitsRetry : Outcome → Bool
  | attemptFailed => true
  | succeeded | unknownOutcome => false

end Outcome

def AttemptKind.mayBecome : AttemptKind → AttemptKind → Bool
  | live phase, live next => next ∈ phase.successors
  | live phase, terminal outcome => phase.ends outcome
  | terminal _, _ => false

inductive AttemptState where
  | live (phase : LivePhase) (leaseExpiresAt : Time) (backendDone processDead : Bool)
  | terminal (outcome : Outcome)
deriving DecidableEq, Repr

namespace AttemptState

def kind : AttemptState → AttemptKind
  | live phase _ _ _ => .live phase
  | terminal outcome => .terminal outcome

/-- `accepts_active_execution`. -/
def isLive : AttemptState → Bool
  | live _ _ _ _ => true
  | terminal _ => false

def isFailed : AttemptState → Bool
  | live _ _ _ _ => false
  | terminal outcome => outcome.failed

def permitsRetry : AttemptState → Bool
  | live _ _ _ _ => false
  | terminal outcome => outcome.permitsRetry

def leaseExpiresAt : AttemptState → Option Time
  | live _ lease _ _ => some lease
  | terminal _ => none

def backendDone : AttemptState → Bool
  | live _ _ done _ => done
  | terminal _ => true

def processDead : AttemptState → Bool
  | live _ _ _ dead => dead
  | terminal _ => true

/-- A declared phase while the backend may still speak; once it is done or dead only the other
final fact on the same phase. -/
def observed (state : AttemptState) (phase : LivePhase) (backendDone processDead progress : Bool) :
    Checked AttemptState :=
  match state with
  | live current lease done dead => do
      require (phase = current ∨ phase ∈ current.successors)
        (.identityConflict "attempt phase edge is not declared")
      require (¬ (dead ∨ done) ∨ (phase = current ∧ ¬ progress ∧
          (done, dead) ≠ (done || backendDone, dead || processDead)))
        (.recoveryBlocked "final backend evidence forbids further phase or progress")
      pure (live phase lease (done || backendDone) (dead || processDead))
  | terminal _ => .error (.identityConflict "attempt phase edge is not declared")

end AttemptState

def ExecutionState.acceptsAttempt (state : ExecutionState) (attempt : AttemptState) : Bool :=
  match state with
  | active _ => attempt.isLive
  | completed _ => attempt == .terminal .succeeded
  | deferred _ | failed _ => attempt.isFailed
  | queued | pending => false

/-! ### Replay facts -/

/-- What was observed of a turn, one bit a fact. -/
abbrev ReplayFacts := BitVec 10

namespace ReplayFact

def none : ReplayFacts := 0
def assistantOutput : ReplayFacts := 1
def unknownEffects : ReplayFacts := 1 <<< 9

end ReplayFact

def Outcome.replayContribution : Outcome → ReplayFacts
  | unknownOutcome => ReplayFact.unknownEffects
  | succeeded | attemptFailed => ReplayFact.none

end AgentComms.Coordination
