import AgentComms.Registry.Document

/-!
# Input attempts

The stored states of one input and the transitions each state decides
(`input_attempt.py`). A stored input is its original, which its constructor checked, with
the notices recorded about it and its state. A state that does not override a transition
inherits the default of `InputAttempt`; the defaults are the last branches below.

The digest of a text is an arbitrary function: the store compares digests only. The
author evidence (`input_origin.py`) is kept and never read by a transition.
-/

namespace AgentComms.Inputs

open Library
open Registry (TurnLeaseFence RegistrySnapshot RegistryError)

inductive InputError where
  | relationViolation (text : String)
  | inputAlreadyCleared (text : String)
  | valueError (text : String)
  | identityConflict (text : String)
  | registry (error : RegistryError)
deriving DecidableEq, Repr

abbrev Checked := Except InputError

/-! ### Keys and originals -/

inductive InputKey where
  | acp (inputId : String)
  | bus (sequence : Int)
  | ownedBus (sequence : Int) (ownerCreated : Nat)
  | turn (turnId : String)
deriving DecidableEq, Repr

/-- Only a bus key has a sequence, its own. -/
def InputKey.requireSequence (sequence : Option Int) : InputKey → Checked Unit
  | .bus own | .ownedBus own _ =>
    require (sequence = some own ∧ 0 < own)
      (.valueError "Bus input key and sequence disagree")
  | .acp _ | .turn _ =>
    require (sequence = none) (.valueError "Input key cannot have a bus sequence")

variable {Origin Digest : Type} [DecidableEq Origin] [DecidableEq Digest]

structure OriginalFields (Origin : Type) where
  key : InputKey
  sequence : Option Int
  owner : String
  claimGeneration : Nat
  target : String
  sourceText : String
  origin : Origin
deriving DecidableEq

def OriginalFields.check (fields : OriginalFields Origin) : Checked Unit := do
  require (fields.owner ≠ "" ∧ fields.target ≠ "" ∧ fields.sourceText ≠ "" ∧
    1 ≤ fields.claimGeneration) (.valueError "Invalid ACP input identity")
  fields.key.requireSequence fields.sequence

structure Original (Origin : Type) extends OriginalFields Origin where
  accepted : toOriginalFields.check = .ok ()
deriving DecidableEq

/-! ### States -/

structure NativeBinding (Digest : Type) where
  turnId : String
  nativeId : String
  sentDigest : Digest
deriving DecidableEq

structure NativeContextProof where
  inputId : String
  sessionId : String
  sessionEntryId : String
  requestGeneration : Nat
  llmContextDigest : String
  committedAtMs : Nat
  sessionFile : String
  sessionEntryStart : Int
deriving DecidableEq, Repr

def NativeContextProof.requireContinuation (proof context : NativeContextProof) : Checked Unit := do
  require (proof.inputId = context.inputId ∧ proof.sessionId = context.sessionId ∧
      proof.sessionEntryId = context.sessionEntryId ∧ proof.sessionFile = context.sessionFile ∧
      proof.sessionEntryStart = context.sessionEntryStart)
    (.identityConflict "Native context acknowledgement belongs to another entry")
  require (proof.requestGeneration ≤ context.requestGeneration)
    (.identityConflict "Native context precedes its original acknowledgement")
  require (context.requestGeneration = proof.requestGeneration → context = proof)
    (.identityConflict "Native request has contradictory context evidence")

inductive InputState (Digest : Type) where
  | reserved
  | boundUnknown (binding : NativeBinding Digest)
  | started (binding : NativeBinding Digest)
  | contextConsumed (binding : NativeBinding Digest) (context : NativeContextProof)
  | notSent
  | clearedUnsent
  | clearedNative (binding : NativeBinding Digest)
deriving DecidableEq

namespace InputState

def binding : InputState Digest → Option (NativeBinding Digest)
  | boundUnknown binding | started binding | contextConsumed binding _
  | clearedNative binding => some binding
  | reserved | notSent | clearedUnsent => none

def context : InputState Digest → Option NativeContextProof
  | contextConsumed _ context => some context
  | _ => none

def hasStarted : InputState Digest → Bool
  | started _ | contextConsumed _ _ => true
  | _ => false

def unresolved : InputState Digest → Bool
  | reserved | boundUnknown _ | notSent => true
  | _ => false

def cleared : InputState Digest → Bool
  | clearedUnsent | clearedNative _ => true
  | _ => false

def closed (state : InputState Digest) : Bool := state = notSent || state.cleared

end InputState

structure GoalInputDecision where
  goalRevision : Nat
  turnId : Option String
deriving DecidableEq, Repr

structure StoredInput (Origin Digest : Type) extends Original Origin where
  noticeDismissed : Bool
  goalReviews : Dict String GoalInputDecision
  state : InputState Digest
deriving DecidableEq

/-- A row of the store, or `MissingInput`. -/
abbrev InputAttempt (Origin Digest : Type) := Option (StoredInput Origin Digest)

/-- What one transition did: moved the input to a state, or left it where it was. -/
inductive InputTransition (Digest : Type) where
  | moved (state : InputState Digest)
  | unchanged
deriving DecidableEq

def InputTransition.requireMoved (refusal : String) :
    InputTransition Digest → Checked (InputTransition Digest)
  | .moved state => .ok (.moved state)
  | .unchanged => .error (.relationViolation refusal)

/-- `InputTransition.successors`: the row a transition writes under its key, if any. -/
def InputAttempt.successor (attempt : InputAttempt Origin Digest) :
    InputTransition Digest → Option (StoredInput Origin Digest)
  | .moved state => attempt.map fun row => { row with state := state }
  | .unchanged => none

structure NativeSend where
  claimScope : Nat
  turnId : String
  nativeId : String
  text : String
deriving DecidableEq, Repr

/-! ### Transitions -/

namespace StoredInput

variable (digest : String → Digest) (row : StoredInput Origin Digest)

def reviewed (goalId : String) (decision : GoalInputDecision) : StoredInput Origin Digest :=
  { row with goalReviews := row.goalReviews.set goalId decision }

def review (goalId : String) (decision : GoalInputDecision) :
    Checked (StoredInput Origin Digest) := do
  require row.state.unresolved (.valueError "Reviewed inputs changed; inspect them again.")
  pure (row.reviewed goalId decision)

def dismissed : StoredInput Origin Digest := { row with noticeDismissed := true }

def matchesNative (turnId nativeId text : String) : Bool :=
  row.state.binding = some ⟨turnId, nativeId, digest text⟩

/-- `ThreadIncarnation.matches_recorded_name` for the lease's thread. -/
def ownedBy (lease : TurnLeaseFence) (snapshot : RegistrySnapshot) : Bool :=
  match snapshot.threads.get? (snapshot.canonicalName row.owner) with
  | some thread => thread.birth = lease.birth
  | none => false

def startedForNative (lease : TurnLeaseFence) (nativeId sentText : String)
    (snapshot : RegistrySnapshot) : Bool :=
  row.state.hasStarted && row.ownedBy lease snapshot &&
    row.claimGeneration = lease.claimedGeneration &&
    row.matchesNative digest lease.turnId nativeId sentText

end StoredInput

namespace InputAttempt

variable (digest : String → Digest) (attempt : InputAttempt Origin Digest)

def requireNotCleared : Checked Unit :=
  match attempt with
  | some row => require (row.state.cleared = false)
      (.inputAlreadyCleared "Input was explicitly cleared")
  | none => .ok ()

def bind (send : NativeSend) : Checked (InputTransition Digest) :=
  match attempt with
  | none => .ok .unchanged
  | some row =>
    match row.state with
    | .reserved =>
      .ok (if row.claimGeneration ≠ send.claimScope then .unchanged
        else .moved (.boundUnknown ⟨send.turnId, send.nativeId, digest send.text⟩))
    | _ => do
        requireNotCleared (some row)
        pure .unchanged

def started (turnId nativeId text : String) : InputTransition Digest :=
  match attempt.map StoredInput.state with
  | some (.boundUnknown binding) =>
    if binding = ⟨turnId, nativeId, digest text⟩ then .moved (.started binding) else .unchanged
  | _ => .unchanged

def finishUnbound : InputTransition Digest :=
  match attempt.map StoredInput.state with
  | some .reserved => .moved .notSent
  | _ => .unchanged

def clearUnbound : InputTransition Digest :=
  match attempt.map StoredInput.state with
  | some .reserved => .moved .clearedUnsent
  | _ => .unchanged

def clearNative (nativeId text : String) : InputTransition Digest :=
  match attempt.map StoredInput.state with
  | some (.boundUnknown binding) =>
    if binding.nativeId = nativeId ∧ binding.sentDigest = digest text then
      .moved (.clearedNative binding)
    else .unchanged
  | _ => .unchanged

def recordContext (context : NativeContextProof) :
    InputState Digest → Checked (InputTransition Digest)
  | .started binding => .ok (.moved (.contextConsumed binding context))
  | .contextConsumed _ first => do
      first.requireContinuation context
      pure .unchanged
  | _ => .error (.relationViolation "Context acknowledgement lacks its started input")

def contextCommitted (lease : TurnLeaseFence) (sentText : String) (context : NativeContextProof)
    (snapshot : RegistrySnapshot) : Checked (InputTransition Digest) :=
  match attempt with
  | some row =>
    if row.state.hasStarted then do
      require (row.startedForNative digest lease context.inputId sentText snapshot)
        (.relationViolation "Context acknowledgement differs from its original input binding")
      recordContext context row.state
    else .error (.relationViolation "Context acknowledgement lacks its started input")
  | none => .error (.relationViolation "Context acknowledgement lacks its started input")

def unresolvedClaim (claimScope : Nat) : Bool :=
  match attempt with
  | some row => row.state.unresolved && row.claimGeneration = claimScope
  | none => false

def matchesNative (turnId nativeId text : String) : Bool :=
  match attempt with
  | some row => row.matchesNative digest turnId nativeId text
  | none => false

end InputAttempt

end AgentComms.Inputs
