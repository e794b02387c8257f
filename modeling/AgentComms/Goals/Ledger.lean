import AgentComms.Library.Dict

/-!
# The goal attempt ledger

The tables of `goal_attempts.py` and its transactions. A generation row keeps the attempt
it names and the digest of its ready grant in the lifecycle member that has them
(`GenerationState.validate_attempt` and the table's checks), and the keys of the tables are
fields of the ledger. A transaction either returns the next ledger or raises and changes
nothing.

A ready grant is a random secret; a number stands for it, and stands for its digest too.
Provider usage and failure observations, which no transaction below reads, are left out.
-/

namespace AgentComms.Goals

open Library

inductive AttemptError where
  | storageUncertain (text : String)
  | reservationConflict (text : String)
  | unresolvedAttempt (text : String)
  | staleAttempt (text : String)
  | missingGoalGeneration (goalId : String)
  | valueError (text : String)
deriving DecidableEq, Repr

/-! ### Phases -/

inductive WorkDecision where
  | retry (decision : String)
  | compliance (answer : String)
  | verifiedTurn (turn : String)
  | order (order : String)
deriving DecidableEq, Repr

inductive AttemptResolution where
  | noResolution
  | decided (decision : WorkDecision)
  | goalCleared
  | operatorStopped
  | originFailed
  | unverifiedLaunchRetired
deriving DecidableEq, Repr

inductive GoalAttemptPhase where
  | reserved
  | claimed
  | failed
  | succeeded
  | resolved
deriving DecidableEq, Repr

namespace GoalAttemptPhase

def successors : GoalAttemptPhase → List GoalAttemptPhase
  | reserved => [claimed, failed, resolved]
  | claimed => [failed, succeeded, resolved]
  | failed => [resolved]
  | succeeded | resolved => []

def mayBecome (phase next : GoalAttemptPhase) : Bool := next ∈ phase.successors

variable (phase : GoalAttemptPhase)

def verifiedProgress : Bool := phase = succeeded

def permitsRetirement : Bool := phase = failed

def requireRetryable : Except AttemptError Unit :=
  require (phase = failed)
    (.unresolvedAttempt "Only a blocked, recorded failure may be retried explicitly.")

def open_ : Bool := phase = reserved || phase = claimed

end GoalAttemptPhase

inductive GenerationState where
  | ready (digest : Nat)
  | reserved (attemptId : Nat)
  | blocked (attemptId : Nat)
  | completed (attemptId : Nat)
  | cancelled (attemptId : Option Nat)
deriving DecidableEq, Repr

namespace GenerationState

def attemptId : GenerationState → Option Nat
  | ready _ => none
  | reserved attemptId | blocked attemptId | completed attemptId => some attemptId
  | cancelled attemptId => attemptId

def isReady : GenerationState → Bool
  | ready _ => true
  | _ => false

def mayBecome : GenerationState → GenerationState → Bool
  | ready _, ready _ | ready _, reserved _ | ready _, cancelled _ => true
  | reserved _, ready _ | reserved _, blocked _ | reserved _, completed _
  | reserved _, cancelled _ => true
  | blocked _, ready _ | blocked _, cancelled _ => true
  | _, _ => false

def permitsRetirement (phase : GoalAttemptPhase) : GenerationState → Bool
  | reserved _ => phase.mayBecome .failed
  | blocked _ => phase.permitsRetirement
  | _ => false

def permitsRetirementWithoutAttempt (state : GenerationState) : Bool := state.isReady

def terminal : GenerationState → Bool
  | completed _ | cancelled _ => true
  | _ => false

end GenerationState

/-! ### Tables -/

structure Generation where
  number : Nat
  lifecycle : GenerationState
  positive : 1 ≤ number
deriving DecidableEq, Repr

structure Reservation where
  goalId : String
  generation : Nat
  attemptId : Nat
  token : Nat
deriving DecidableEq, Repr

structure AttemptRecord where
  reservation : Reservation
  phase : GoalAttemptPhase
  progressWitness : Option String
  resolution : AttemptResolution
deriving DecidableEq, Repr

structure GoalWorkDecision where
  goalId : String
  decision : WorkDecision
  generation : Nat
deriving DecidableEq, Repr

/-- The tables with their unique keys: an attempt under its id, one attempt for a goal
generation, one use of a decision for a goal. -/
structure Ledger where
  generations : Dict String Generation
  attempts : Dict Nat AttemptRecord
  decisions : List GoalWorkDecision
  keyed : ∀ id record, attempts.get? id = some record → record.reservation.attemptId = id
  unique : ∀ id record id' record', attempts.get? id = some record →
    attempts.get? id' = some record' → record.reservation.goalId = record'.reservation.goalId →
    record.reservation.generation = record'.reservation.generation → id = id'
  decided : decisions.Pairwise fun row other =>
    (row.goalId, row.decision) ≠ (other.goalId, other.decision)

namespace Ledger

def empty : Ledger where
  generations := .empty
  attempts := .empty
  decisions := []
  keyed := fun _ _ hget => by cases hget
  unique := fun _ _ _ _ hget => by cases hget
  decided := .nil

variable (ledger : Ledger)

def putGeneration (goalId : String) (generation : Generation) : Ledger :=
  { ledger with generations := ledger.generations.set goalId generation }

def updateAttempt (attemptId : Nat) (phase : GoalAttemptPhase) (progressWitness : Option String)
    (resolution : AttemptResolution) : Ledger where
  generations := ledger.generations
  attempts := ledger.attempts.mapValues fun id record =>
    if id = attemptId then
      { record with
        phase := phase
        progressWitness := progressWitness
        resolution := resolution }
    else record
  decisions := ledger.decisions
  keyed := by
    intro id record hget
    simp only [Dict.get?_mapValues, Option.map_eq_some_iff] at hget
    obtain ⟨old, hold, rfl⟩ := hget
    have hkey := ledger.keyed id old hold
    split <;> exact hkey
  unique := by
    intro id record id' record' hget hget' hgoal hgeneration
    simp only [Dict.get?_mapValues, Option.map_eq_some_iff] at hget hget'
    obtain ⟨old, hold, rfl⟩ := hget
    obtain ⟨old', hold', rfl⟩ := hget'
    apply ledger.unique id old id' old' hold hold'
    · split at hgoal <;> split at hgoal <;> exact hgoal
    · split at hgeneration <;> split at hgeneration <;> exact hgeneration
  decided := ledger.decided

def insertAttempt (record : AttemptRecord) : Except AttemptError Ledger :=
  if hfresh : ledger.attempts.get? record.reservation.attemptId = none ∧
      record.reservation.goalId ∈ ledger.generations ∧
      ∀ entry ∈ ledger.attempts.entries,
        ¬ (entry.2.reservation.goalId = record.reservation.goalId ∧
          entry.2.reservation.generation = record.reservation.generation) then
    .ok { ledger with
      attempts := ledger.attempts.set record.reservation.attemptId record
      keyed := by
        intro id other hget
        rcases Dict.get?_set_eq_some.mp hget with ⟨hid, rfl⟩ | ⟨-, hget⟩
        · exact hid.symm
        · exact ledger.keyed id other hget
      unique := by
        intro id other id' other' hget hget' hgoal hgeneration
        rcases Dict.get?_set_eq_some.mp hget with ⟨hid, rfl⟩ | ⟨-, hget⟩ <;>
          rcases Dict.get?_set_eq_some.mp hget' with ⟨hid', rfl⟩ | ⟨-, hget'⟩
        · exact hid.trans hid'.symm
        · exact absurd ⟨hgoal.symm, hgeneration.symm⟩
            (hfresh.2.2 _ (Dict.mem_entries.mpr hget'))
        · exact absurd ⟨hgoal, hgeneration⟩ (hfresh.2.2 _ (Dict.mem_entries.mpr hget))
        · exact ledger.unique id other id' other' hget hget' hgoal hgeneration }
  else .error (.storageUncertain "Goal attempt write durability is uncertain.")

def claimDecision (row : GoalWorkDecision) : Except AttemptError Ledger :=
  if hunused : ∀ other ∈ ledger.decisions,
      (row.goalId, row.decision) ≠ (other.goalId, other.decision) then
    .ok { ledger with
      decisions := row :: ledger.decisions
      decided := List.pairwise_cons.mpr ⟨hunused, ledger.decided⟩ }
  else .error (.unresolvedAttempt "That work decision was already used.")

def reservedBy (reservation : Reservation) (refusal : AttemptError) :
    Except AttemptError AttemptRecord := do
  let record ← orRefuse (ledger.attempts.get? reservation.attemptId) refusal
  require (record.reservation = reservation) refusal
  pure record

def advanceAttempt (record : AttemptRecord) (phase : GoalAttemptPhase)
    (progressWitness : Option String) (resolution : AttemptResolution) :
    Except AttemptError Ledger := do
  require (record.phase.mayBecome phase)
    (.staleAttempt "Attempt transition is no longer permitted.")
  pure (ledger.updateAttempt record.reservation.attemptId phase progressWitness resolution)

def advanceGeneration (goalId : String) (current successor : Generation) :
    Except AttemptError Ledger := do
  require (current.lifecycle.mayBecome successor.lifecycle)
    (.staleAttempt "Generation transition is no longer permitted.")
  pure (ledger.putGeneration goalId successor)

def heldBy (reservation : Reservation) (refusal : AttemptError) :
    Except AttemptError (Generation × AttemptRecord) := do
  let record ← ledger.reservedBy reservation refusal
  let current ← orRefuse (ledger.generations.get? reservation.goalId) refusal
  require (current.number = reservation.generation ∧
    current.lifecycle = .reserved reservation.attemptId) refusal
  pure (current, record)

def requireCurrent (reservation : Reservation) (phase : GoalAttemptPhase) :
    Except AttemptError (Generation × AttemptRecord) := do
  let (current, record) ← ledger.heldBy reservation
    (.staleAttempt "Attempt is no longer current or is already claimed.")
  require (record.phase = phase)
    (.staleAttempt "Attempt is no longer current or is already claimed.")
  pure (current, record)

def requireReady (goalId : String) (number : Nat) (refusal : AttemptError) :
    Except AttemptError (Generation × Nat) := do
  let current ← orRefuse (ledger.generations.get? goalId) refusal
  require (current.number = number) refusal
  match current.lifecycle with
  | .ready digest => pure (current, digest)
  | _ => .error refusal

end Ledger

/-! ### Transactions -/

namespace Generation

variable (generation : Generation)

def becomes (lifecycle : GenerationState) : Generation :=
  { generation with lifecycle := lifecycle }

def following (digest : Nat) : Generation where
  number := generation.number + 1
  lifecycle := .ready digest
  positive := Nat.succ_pos _

end Generation

namespace Ledger

variable (ledger : Ledger)

def createGoal (goalId : String) (digest : Nat) : Except AttemptError Ledger := do
  require (ledger.generations.get? goalId = none)
    (.reservationConflict "Goal ID already has a ledger.")
  pure (ledger.putGeneration goalId ⟨1, .ready digest, Nat.one_pos⟩)

def recoverUnreservedReady (goalId : String) (expectedGeneration digest : Nat) :
    Except AttemptError Ledger := do
  let (current, _) ← ledger.requireReady goalId expectedGeneration
    (.reservationConflict "Only an unreserved READY generation can be recovered.")
  ledger.advanceGeneration goalId current (current.becomes (.ready digest))

variable (reservation : Reservation)

def reserve (digest : Nat) : Except AttemptError Ledger := do
  let (current, readyDigest) ← ledger.requireReady reservation.goalId reservation.generation
    (.reservationConflict "Goal generation is not ready or already reserved.")
  require (readyDigest = digest)
    (.unresolvedAttempt "Ready grant is stale or was never acknowledged.")
  let inserted ← ledger.insertAttempt ⟨reservation, .reserved, none, .noResolution⟩
  inserted.advanceGeneration reservation.goalId current
    (current.becomes (.reserved reservation.attemptId))

def claimLaunch : Except AttemptError Ledger := do
  let (_, record) ← ledger.requireCurrent reservation .reserved
  ledger.advanceAttempt record .claimed none .noResolution

/-- The attempt ends in `phase` and the next generation is ready. -/
def advanceReady (phase : GoalAttemptPhase)
    (progressWitness : Option String) (resolution : AttemptResolution) (digest : Nat) :
    Except AttemptError Ledger := do
  let (current, record) ← ledger.requireCurrent reservation .claimed
  let ended ← ledger.advanceAttempt record phase progressWitness resolution
  ended.advanceGeneration reservation.goalId current (current.following digest)

def recordVerifiedCompletion (witness : String) :
    Except AttemptError Ledger := do
  let (current, record) ← ledger.requireCurrent reservation .claimed
  let ended ← ledger.advanceAttempt record .succeeded (some witness) .noResolution
  ended.advanceGeneration reservation.goalId current
    (current.becomes (.completed reservation.attemptId))

def fail (diagnostic : AttemptResolution) :
    Except AttemptError Ledger := do
  let (current, record) ← ledger.heldBy reservation
    (.staleAttempt "Late failure cannot modify this goal generation.")
  require (record.phase.mayBecome .failed)
    (.staleAttempt "Late failure cannot modify this goal generation.")
  let ended ← ledger.advanceAttempt record .failed none diagnostic
  ended.advanceGeneration reservation.goalId current
    (current.becomes (.blocked reservation.attemptId))

def authorizeReadyRecovery (goalId : String) (expectedGeneration : Nat)
    (decision : WorkDecision) (digest : Nat) : Except AttemptError Ledger := do
  let (current, _) ← ledger.requireReady goalId expectedGeneration
    (.unresolvedAttempt "Goal is not ready; an attempt may already be unresolved.")
  let claimed ← ledger.claimDecision ⟨goalId, decision, expectedGeneration⟩
  claimed.advanceGeneration goalId current (current.following digest)

def identified (goalId : String) (generation attemptId : Nat) (refusal : AttemptError) :
    Except AttemptError AttemptRecord := do
  let record ← orRefuse (ledger.attempts.get? attemptId) refusal
  require (record.reservation.goalId = goalId ∧ record.reservation.generation = generation ∧
    record.reservation.attemptId = attemptId) refusal
  pure record

def authorizeRetry (goalId : String) (expectedGeneration attemptId : Nat)
    (decision : WorkDecision) (digest : Nat) : Except AttemptError Ledger := do
  let current ← orRefuse (ledger.generations.get? goalId)
    (.unresolvedAttempt "Blocked attempt changed or is not resolved.")
  require (current.number = expectedGeneration ∧ current.lifecycle = .blocked attemptId)
    (.unresolvedAttempt "Blocked attempt changed or is not resolved.")
  let record ← ledger.identified goalId expectedGeneration attemptId
    (.unresolvedAttempt "Only a blocked, recorded failure may be retried explicitly.")
  record.phase.requireRetryable
  let claimed ← ledger.claimDecision ⟨goalId, decision, expectedGeneration⟩
  let resolved ← claimed.advanceAttempt record .resolved none (.decided decision)
  resolved.advanceGeneration goalId current (current.following digest)

/-- `LedgerAttempt.retire`: resolve the attempt a generation names, if it names one. -/
def retireAttempt (lifecycle : GenerationState) (goalId : String) (generation : Nat) :
    Option Nat → Except AttemptError Ledger
  | some attemptId => do
      let record ← ledger.identified goalId generation attemptId
        (.staleAttempt "Unresolved goal has no matching attempt to retire.")
      require (lifecycle.permitsRetirement record.phase)
        (.staleAttempt "Goal or attempt is no longer eligible for retirement.")
      ledger.advanceAttempt record .resolved none .goalCleared
  | none => do
      require lifecycle.permitsRetirementWithoutAttempt
        (.staleAttempt "Goal or attempt is no longer eligible for retirement.")
      pure ledger

def retireGoal (goalId : String) (expectedGeneration : Nat) (attemptId : Option Nat) :
    Except AttemptError Ledger := do
  let current ← orRefuse (ledger.generations.get? goalId)
    (.staleAttempt "Goal generation or attempt changed before retirement.")
  require (current.number = expectedGeneration ∧ current.lifecycle.attemptId = attemptId)
    (.staleAttempt "Goal generation or attempt changed before retirement.")
  let retired ← ledger.retireAttempt current.lifecycle goalId expectedGeneration attemptId
  retired.advanceGeneration goalId current (current.becomes (.cancelled attemptId))

end Ledger

end AgentComms.Goals
