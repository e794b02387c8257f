import AgentComms.Goals.Ledger
import AgentComms.Library.Text

/-!
# Attempt stores over one ledger

Any number of `GoalAttemptStore` instances share one ledger. A call starts with the checks
made outside its transaction, commits, and returns after its readback (`_change`); it may
raise before or after the commit, and an instance may be lost with its calls at any time.
The random strings a call draws (the ready grant, or the attempt id and its token) are
written as the number of the call, which no other call has.

`permits`, `written` and `acknowledged` record what happened, latest first; no call reads
them. `delegated` holds the grants that `ready_grant` returned: the only ones a caller can
present besides the instance's own, since a grant is a secret of its writer.
-/

namespace AgentComms.Goals

open Library

/-! ### Calls -/

inductive AttemptOp where
  | createGoal (goalId : String)
  | recoverUnreservedReady (goalId : String) (expectedGeneration : Nat)
  | reserve (goalId : String) (expectedGeneration : Nat) (readyGrant : Option Nat)
  | claimLaunch (reservation : Reservation)
  | recordVerifiedProgress (reservation : Reservation) (progressWitness : String)
  | stop (reservation : Reservation)
  | recordVerifiedCompletion (reservation : Reservation) (witness : String)
  | fail (reservation : Reservation) (diagnostic : AttemptResolution)
  | authorizeReadyRecovery (goalId : String) (expectedGeneration : Nat) (decision : WorkDecision)
  | authorizeRetry (goalId : String) (expectedGeneration attemptId : Nat)
      (decision : WorkDecision)
  | retireGoal (goalId : String) (expectedGeneration : Nat) (attemptId : Option Nat)
deriving DecidableEq, Repr

inductive Change where
  | createGoal (goalId : String)
  | recoverUnreservedReady (goalId : String) (expectedGeneration : Nat)
  | reserve (reservation : Reservation) (digest : Nat)
  | claimLaunch (reservation : Reservation)
  | advanceReady (reservation : Reservation) (phase : GoalAttemptPhase)
      (progressWitness : Option String) (resolution : AttemptResolution)
  | recordVerifiedCompletion (reservation : Reservation) (witness : String)
  | fail (reservation : Reservation) (diagnostic : AttemptResolution)
  | authorizeReadyRecovery (goalId : String) (expectedGeneration : Nat) (decision : WorkDecision)
  | authorizeRetry (goalId : String) (expectedGeneration attemptId : Nat)
      (decision : WorkDecision)
  | retireGoal (goalId : String) (expectedGeneration : Nat) (attemptId : Option Nat)
deriving DecidableEq, Repr

namespace Change

def write (call : Nat) (ledger : Ledger) : Change → Except AttemptError Ledger
  | createGoal goalId => ledger.createGoal goalId call
  | recoverUnreservedReady goalId expectedGeneration =>
    ledger.recoverUnreservedReady goalId expectedGeneration call
  | reserve reservation digest => ledger.reserve reservation digest
  | claimLaunch reservation => ledger.claimLaunch reservation
  | advanceReady reservation phase progressWitness resolution =>
    ledger.advanceReady reservation phase progressWitness resolution call
  | recordVerifiedCompletion reservation witness =>
    ledger.recordVerifiedCompletion reservation witness
  | fail reservation diagnostic => ledger.fail reservation diagnostic
  | authorizeReadyRecovery goalId expectedGeneration decision =>
    ledger.authorizeReadyRecovery goalId expectedGeneration decision call
  | authorizeRetry goalId expectedGeneration attemptId decision =>
    ledger.authorizeRetry goalId expectedGeneration attemptId decision call
  | retireGoal goalId expectedGeneration attemptId =>
    ledger.retireGoal goalId expectedGeneration attemptId

/-- The generation a `_ready_change` makes ready, under the grant of its call. -/
def readyGeneration : Change → Option (String × Nat)
  | createGoal goalId => some (goalId, 1)
  | recoverUnreservedReady goalId expectedGeneration => some (goalId, expectedGeneration)
  | advanceReady reservation _ _ _ => some (reservation.goalId, reservation.generation + 1)
  | authorizeReadyRecovery goalId expectedGeneration _
  | authorizeRetry goalId expectedGeneration _ _ => some (goalId, expectedGeneration + 1)
  | reserve _ _ | claimLaunch _ | recordVerifiedCompletion _ _ | fail _ _
  | retireGoal _ _ _ => none

end Change

def Ledger.isGeneration (ledger : Ledger) (goalId : String) (number : Nat)
    (lifecycle : GenerationState) : Bool :=
  match ledger.generations.get? goalId with
  | some generation => generation.number = number && generation.lifecycle = lifecycle
  | none => false

def Ledger.readback (ledger : Ledger) (reservation : Reservation) (phase : GoalAttemptPhase)
    (lifecycle : GenerationState) : Bool :=
  ledger.isGeneration reservation.goalId reservation.generation lifecycle &&
    match ledger.attempts.get? reservation.attemptId with
    | some record => record.reservation = reservation && record.phase = phase
    | none => false

def Change.attested (call : Nat) (ledger : Ledger) : Change → Bool
  | createGoal goalId => ledger.isGeneration goalId 1 (.ready call)
  | recoverUnreservedReady goalId expectedGeneration =>
    ledger.isGeneration goalId expectedGeneration (.ready call)
  | advanceReady reservation _ _ _ =>
    ledger.isGeneration reservation.goalId (reservation.generation + 1) (.ready call)
  | authorizeReadyRecovery goalId expectedGeneration _
  | authorizeRetry goalId expectedGeneration _ _ =>
    ledger.isGeneration goalId (expectedGeneration + 1) (.ready call)
  | reserve reservation _ =>
    ledger.readback reservation .reserved (.reserved reservation.attemptId)
  | claimLaunch reservation =>
    ledger.readback reservation .claimed (.reserved reservation.attemptId)
  | recordVerifiedCompletion reservation _ =>
    ledger.readback reservation .succeeded (.completed reservation.attemptId)
  | fail reservation _ => ledger.readback reservation .failed (.blocked reservation.attemptId)
  | retireGoal goalId expectedGeneration attemptId =>
    ledger.isGeneration goalId expectedGeneration (.cancelled attemptId) &&
      match attemptId with
      | some attemptId => (ledger.attempts.get? attemptId).any fun record =>
        record.phase = .resolved && record.resolution = .goalCleared
      | none => true

/-! ### Instances -/

structure Instance where
  owned : List Nat
  readyGrants : Dict (String × Nat) Nat

def Instance.opened : Instance := ⟨[], .empty⟩

structure Call where
  instanceId : Nat
  change : Change
  committed : Bool
deriving DecidableEq, Repr

structure GrantWrite where
  goalId : String
  generation : Nat
  grant : Nat
deriving DecidableEq, Repr

structure Stores where
  ledger : Ledger
  instances : Dict Nat Instance
  calls : Dict Nat Call
  minted : Nat
  delegated : List Nat
  permits : List Reservation
  written : List GrantWrite
  acknowledged : List GrantWrite

namespace Stores

def initial : Stores := ⟨.empty, .empty, .empty, 0, [], [], [], []⟩

variable (stores : Stores)

/-- A store that was never opened, or was lost, holds nothing. -/
def at_ (instanceId : Nat) : Instance := (stores.instances.get? instanceId).getD .opened

/-- `GoalAttemptStore.reserve` up to its transaction. -/
def selectGrant (instanceId : Nat) (goalId : String) (expectedGeneration : Nat) :
    Option Nat → Except AttemptError Nat
  | some grant => do
      require (grant ∈ stores.delegated)
        (.unresolvedAttempt "Ready grant is stale or was never acknowledged.")
      pure grant
  | none =>
    match (stores.at_ instanceId).readyGrants.get? (goalId, expectedGeneration) with
    | some grant => .ok grant
    | none =>
      match stores.ledger.generations.get? goalId with
      | some current =>
        if current.number = expectedGeneration ∧ current.lifecycle.isReady then
          .error (.unresolvedAttempt
            "No acknowledged ready grant; explicit recovery is required.")
        else .error (.reservationConflict
          "Goal generation is not ready or already reserved.")
      | none => .error (.reservationConflict
          "Goal generation is not ready or already reserved.")

/-- The checks before a transaction, and the transaction, if there is one to make. -/
def begin (instanceId : Nat) : AttemptOp → Except AttemptError (Option Change)
  | .createGoal goalId => do
      require (blank goalId = false) (.valueError "Goal ID is required.")
      pure (some (.createGoal goalId))
  | .recoverUnreservedReady goalId expectedGeneration =>
    .ok (some (.recoverUnreservedReady goalId expectedGeneration))
  | .reserve goalId expectedGeneration readyGrant => do
      let grant ← stores.selectGrant instanceId goalId expectedGeneration readyGrant
      pure (some (.reserve ⟨goalId, expectedGeneration, stores.minted, stores.minted⟩ grant))
  | .claimLaunch reservation => do
      require (reservation.attemptId ∈ (stores.at_ instanceId).owned)
        (.unresolvedAttempt "A reservation cannot be replayed after owner loss.")
      pure (some (.claimLaunch reservation))
  | .recordVerifiedProgress reservation progressWitness => do
      require (blank progressWitness = false)
        (.valueError "A nonempty verified progress witness is required.")
      pure (some (.advanceReady reservation .succeeded (some progressWitness) .noResolution))
  | .stop reservation => do
      let record ← stores.ledger.reservedBy reservation
        (.staleAttempt "Original launch attempt changed or is unavailable.")
      pure (if record.phase.verifiedProgress then none
        else some (.advanceReady reservation .failed none .operatorStopped))
  | .recordVerifiedCompletion reservation witness => do
      require (blank witness = false)
        (.valueError "A nonempty verified completion witness is required.")
      pure (some (.recordVerifiedCompletion reservation witness))
  | .fail reservation diagnostic => .ok (some (.fail reservation diagnostic))
  | .authorizeReadyRecovery goalId expectedGeneration decision =>
    .ok (some (.authorizeReadyRecovery goalId expectedGeneration decision))
  | .authorizeRetry goalId expectedGeneration attemptId decision =>
    .ok (some (.authorizeRetry goalId expectedGeneration attemptId decision))
  | .retireGoal goalId expectedGeneration attemptId =>
    .ok (some (.retireGoal goalId expectedGeneration attemptId))

def withInstance (instanceId : Nat) (change : Instance → Instance) : Stores :=
  { stores with instances := stores.instances.set instanceId (change (stores.at_ instanceId)) }

/-- A call raises: an uncertain claim cannot be used twice in its process. -/
def raised (id : Nat) (call : Call) : Stores :=
  let ended := { stores with calls := stores.calls.erase id }
  match call.change with
  | .claimLaunch reservation => ended.withInstance call.instanceId fun store =>
    { store with owned := store.owned.filter (· ≠ reservation.attemptId) }
  | _ => ended

/-- A call returns: what its instance keeps, and what it hands to its caller. -/
def returned (id : Nat) (call : Call) : Stores :=
  let ended := { stores with calls := stores.calls.erase id }
  match call.change.readyGeneration with
  | some (goalId, generation) =>
    { ended.withInstance call.instanceId fun store =>
        { store with readyGrants := store.readyGrants.set (goalId, generation) id } with
      acknowledged := ⟨goalId, generation, id⟩ :: stores.acknowledged }
  | none =>
    match call.change with
    | .reserve reservation _ => ended.withInstance call.instanceId fun store =>
      { owned := reservation.attemptId :: store.owned
        readyGrants :=
          store.readyGrants.erase (reservation.goalId, reservation.generation) }
    | .claimLaunch reservation =>
      { ended.withInstance call.instanceId fun store =>
          { store with owned := store.owned.filter (· ≠ reservation.attemptId) } with
        permits := reservation :: stores.permits }
    | .retireGoal goalId expectedGeneration attemptId =>
      ended.withInstance call.instanceId fun store =>
        { owned := store.owned.filter fun owned => some owned ≠ attemptId
          readyGrants := store.readyGrants.erase (goalId, expectedGeneration) }
    | _ => ended

def committed (id : Nat) (call : Call) (ledger : Ledger) : Stores :=
  { stores with
    ledger := ledger
    calls := stores.calls.set id { call with committed := true }
    written := match call.change.readyGeneration with
      | some (goalId, generation) => ⟨goalId, generation, id⟩ :: stores.written
      | none => stores.written }

end Stores

inductive StoresEvent where
  | start (instanceId : Nat) (op : AttemptOp)
  | commit (id : Nat)
  | attest (id : Nat)
  | raise (id : Nat)
  | lose (instanceId : Nat)
  | delegate (instanceId : Nat) (goalId : String) (generation : Nat)
deriving DecidableEq, Repr

namespace Stores

def step (stores : Stores) : StoresEvent → Stores
  | .start instanceId op =>
    match stores.begin instanceId op with
    | .ok (some change) =>
      { stores with
        calls := stores.calls.set stores.minted ⟨instanceId, change, false⟩
        minted := stores.minted + 1 }
    | _ => stores
  | .commit id =>
    match stores.calls.get? id with
    | some call =>
      if call.committed then stores
      else
        match call.change.write id stores.ledger with
        | .ok ledger => stores.committed id call ledger
        | .error _ => stores.raised id call
    | none => stores
  | .attest id =>
    match stores.calls.get? id with
    | some call =>
      if call.committed then
        if call.change.attested id stores.ledger then stores.returned id call
        else stores.raised id call
      else stores
    | none => stores
  | .raise id =>
    match stores.calls.get? id with
    | some call => stores.raised id call
    | none => stores
  | .lose instanceId =>
    { stores with
      instances := stores.instances.erase instanceId
      calls := stores.calls.filter fun _ call => call.instanceId ≠ instanceId }
  | .delegate instanceId goalId generation =>
    match (stores.at_ instanceId).readyGrants.get? (goalId, generation) with
    | some grant =>
      if stores.ledger.isGeneration goalId generation (.ready grant) then
        { stores with delegated := grant :: stores.delegated }
      else stores
    | none => stores

def reached (events : List StoresEvent) : Stores := events.foldl step initial

end Stores

end AgentComms.Goals
