import AgentComms.Library.Run

/-!
# The maintenance barrier

The durable maintenance phase of one wire root (`storage/maintenance_barrier.py`). The
witness is three files. An operation reads them under the registry write lock, decides one
record, and replaces the target, the marker and the state in this order; a process may stop
after any prefix of these writes. `ClaimId.mint` is the next number that was never handed
out, and the version of a record is constant.

The observation that `allow_input` makes before it takes the registry read lock either
raises or releases a dead holder, which is an event of its own below; `allowInput` is the
check under the lock.
-/

namespace AgentComms.Maintenance

open Library

inductive MaintenanceError where
  | maintenanceHeld (text : String)
  | relationViolation (text : String)
  | valueError (text : String)
deriving DecidableEq, Repr

abbrev Checked := Except MaintenanceError

/-! ### Phases -/

inductive MaintenancePhase where
  | draining
  | paused
  | installing
  | ready
  | deadHolderReleased
deriving DecidableEq, Repr

namespace MaintenancePhase

/-- `isinstance` against a phase: a released hold is a kind of `ready`. -/
def isInstance (phase kind : MaintenancePhase) : Bool :=
  phase = kind || phase = deadHolderReleased && kind = ready

def successors : MaintenancePhase → List MaintenancePhase
  | draining => [paused, ready]
  | paused => [installing]
  | installing => [ready]
  | ready | deadHolderReleased => [draining]

def mayBecome (phase next : MaintenancePhase) : Bool := phase.successors.any next.isInstance

def isReady (phase : MaintenancePhase) : Bool := phase.isInstance ready

end MaintenancePhase

/-! ### Records -/

structure MaintenanceOperator where
  pid : Nat
  startTime : Nat
deriving DecidableEq, Repr

inductive MaintenanceTarget where
  | noTarget
  | runtime (interpreter : String)
deriving DecidableEq, Repr

def MaintenancePhase.targetAfter (phase : MaintenancePhase) (target : MaintenanceTarget) :
    MaintenanceTarget :=
  if phase.isReady then .noTarget else target

structure MaintenanceMarker where
  root : String
  generation : Nat
  allocated : 0 < generation ∧ generation < 2 ^ 63
deriving DecidableEq, Repr

def MaintenanceMarker.make (root : String) (generation : Nat) : Checked MaintenanceMarker :=
  if hallocated : 0 < generation ∧ generation < 2 ^ 63 then .ok ⟨root, generation, hallocated⟩
  else .error (.valueError "Maintenance generation is outside its allocation domain")

structure MaintenanceState extends MaintenanceMarker where
  operator : MaintenanceOperator
  nonce : Nat
  phase : MaintenancePhase
  target : MaintenanceTarget
deriving DecidableEq, Repr

/-- The runtime a hold lets through, stamped for one write of the witness. -/
structure HoldTarget where
  generation : Nat
  nonce : Nat
  target : MaintenanceTarget
deriving DecidableEq, Repr

/-- A stored record, or the absent witness, which is ready. -/
abbrev MaintenanceStatus := Option MaintenanceState

inductive MaintenanceHolder where
  | noHolder
  | claim (nonce : Nat)
deriving DecidableEq, Repr

def MaintenanceHolder.holds (nonce : Nat) : MaintenanceHolder → Bool
  | noHolder => false
  | claim own => nonce = own

namespace MaintenanceState

variable (state : MaintenanceState)

/-- The record without its target, as the state file keeps it. -/
def withoutTarget : MaintenanceState := { state with target := .noTarget }

def requireMarker (marker : MaintenanceMarker) (root : String) : Checked MaintenanceState := do
  require (marker.root = root ∧ marker.generation = state.generation ∧ state.root = marker.root)
    (.relationViolation "Maintenance witness inconsistent; new turns held")
  pure state

/-- Every rewrite of a hold takes the next generation and a fresh nonce. -/
def advanced (nonce : Nat) (phase : MaintenancePhase) (target : MaintenanceTarget) :
    Checked MaintenanceState := do
  let marker ← MaintenanceMarker.make state.root (state.generation + 1)
  pure ⟨marker, state.operator, nonce, phase, target⟩

def inPhase (phase : MaintenancePhase) (nonce : Nat) : Checked MaintenanceState :=
  state.advanced nonce phase (phase.targetAfter state.target)

def successor (phase : MaintenancePhase) (nonce : Nat) : Checked MaintenanceState := do
  require (state.phase.mayBecome phase)
    (.valueError "Maintenance transition requires a valid expected successor")
  state.inPhase phase nonce

def requireDraining : Checked Unit :=
  require (state.phase = .draining) (.valueError "Only an acquired draining phase can be cleared")

end MaintenanceState

namespace MaintenanceStatus

def generation : MaintenanceStatus → Nat
  | none => 0
  | some state => state.generation

def phase : MaintenanceStatus → MaintenancePhase
  | none => .ready
  | some state => state.phase

def holderDead (dead : List MaintenanceOperator) : MaintenanceStatus → Bool
  | none => false
  | some state => !state.phase.isReady && state.operator ∈ dead

def requireOpen (status : MaintenanceStatus) : Checked Unit :=
  require status.phase.isReady
    (.maintenanceHeld "Maintenance holds ingress: the bus is under maintenance")

/-- What `begin` takes over: an open root, or an abandoned hold. -/
def requireTakeable (dead : List MaintenanceOperator) (status : MaintenanceStatus) : Checked Unit :=
  if status.holderDead dead then .ok () else status.requireOpen

def requireOpenTo (holder : MaintenanceHolder) : MaintenanceStatus → Checked Unit
  | none => requireOpen none
  | some state => if holder.holds state.nonce then .ok () else requireOpen (some state)

end MaintenanceStatus

/-! ### The witness -/

structure WitnessFiles where
  marker : Option MaintenanceMarker
  state : Option MaintenanceState
  target : Option HoldTarget
deriving DecidableEq, Repr

/-- The target applies only to the write that stamped it. -/
def HoldTarget.appliedTo (held : HoldTarget) (state : MaintenanceState) : MaintenanceState :=
  if (held.generation, held.nonce) ≠ (state.generation, state.nonce) then state
  else { state with target := held.target }

/-- An incomplete publication always refuses. -/
def readWitness (root : String) (files : WitnessFiles) : Checked MaintenanceStatus :=
  match files.marker, files.state with
  | none, none => .ok none
  | some marker, some state => do
      let held ← state.requireMarker marker root
      pure (some (match files.target with
        | some target => target.appliedTo held
        | none => held))
  | _, _ => .error (.relationViolation "Maintenance witness incomplete; new turns held")

inductive FileWrite where
  | target (held : HoldTarget)
  | marker (marker : MaintenanceMarker)
  | state (state : MaintenanceState)
deriving DecidableEq, Repr

def WitnessFiles.replace (files : WitnessFiles) : FileWrite → WitnessFiles
  | .target held => { files with target := some held }
  | .marker marker => { files with marker := some marker }
  | .state state => { files with state := some state }

/-- The target leads, stamped for this write; the marker leads the state. -/
def MaintenanceState.writes (hold : MaintenanceState) : List FileWrite :=
  [.target ⟨hold.generation, hold.nonce, hold.target⟩, .marker hold.toMaintenanceMarker,
    .state hold.withoutTarget]

/-! ### Operations -/

/-- A wire root. `completed` lists the records whose three files were all written, the
latest first; no operation reads it. -/
structure MaintenanceRoot where
  files : WitnessFiles
  minted : Nat
  dead : List MaintenanceOperator
  completed : List MaintenanceState
deriving DecidableEq, Repr

/-- How an operation ends: it returns without a write, it writes a hold and returns it, or
it releases a dead holder and raises. -/
inductive Outcome where
  | returned (status : MaintenanceStatus)
  | wrote (hold : MaintenanceState)
  | released (hold : MaintenanceState)
deriving DecidableEq, Repr

def Outcome.hold : Outcome → Option MaintenanceState
  | returned _ => none
  | wrote hold | released hold => some hold

namespace MaintenanceBarrier

variable (root : String) (world : MaintenanceRoot)

def checked (hold : MaintenanceState) : Checked MaintenanceState :=
  hold.requireMarker hold.toMaintenanceMarker root

def releaseDeadUnlocked (expected : MaintenanceState) : Checked Outcome := do
  let current ← readWitness root world.files
  if current ≠ some expected then pure (.returned current)
  else do
    let hold ← expected.inPhase .deadHolderReleased world.minted
    let hold ← checked root hold
    pure (.released hold)

def observed (status : MaintenanceStatus) : Checked Outcome :=
  match status with
  | some state =>
    if status.holderDead world.dead then releaseDeadUnlocked root world state
    else .ok (.returned status)
  | none => .ok (.returned status)

/-- `current_unlocked`, and what follows it unless it raises. -/
def withCurrent (body : MaintenanceStatus → Checked Outcome) : Checked Outcome := do
  let current ← readWitness root world.files
  match ← observed root world current with
  | .returned status => body status
  | outcome => pure outcome

/-- A successor takes an abandoned hold without briefly reopening ingress. -/
def begin (operator : MaintenanceOperator) : Checked Outcome := do
  let current ← readWitness root world.files
  current.requireTakeable world.dead
  let marker ← MaintenanceMarker.make root (current.generation + 1)
  let hold ← checked root ⟨marker, operator, world.minted, .draining, .noTarget⟩
  pure (.wrote hold)

def retarget (expected : MaintenanceState) (interpreter : String) : Checked Outcome := do
  expected.requireDraining
  withCurrent root world fun current => do
    require (current = some expected)
      (.relationViolation "Maintenance generation/operator changed")
    let hold ← expected.advanced world.minted expected.phase (.runtime interpreter)
    let hold ← checked root hold
    pure (.wrote hold)

def advance (expected : MaintenanceState) (phase : MaintenancePhase) : Checked Outcome :=
  withCurrent root world fun current => do
    require (current = some expected)
      (.relationViolation "Maintenance generation/operator changed")
    let hold ← expected.successor phase world.minted
    let hold ← checked root hold
    pure (.wrote hold)

def clear (expected : MaintenanceState) : Checked Outcome := do
  expected.requireDraining
  advance root world expected .ready

/-- Input permission under the registry read lock. -/
def allowInput (holder : MaintenanceHolder) : Checked MaintenanceStatus := do
  let status ← readWitness root world.files
  status.requireOpenTo holder
  pure status

end MaintenanceBarrier

/-! ### Runs -/

inductive BarrierOp where
  | begin (operator : MaintenanceOperator)
  | retarget (expected : MaintenanceState) (interpreter : String)
  | advance (expected : MaintenanceState) (phase : MaintenancePhase)
  | clear (expected : MaintenanceState)
  | releaseDead (expected : MaintenanceState)
deriving DecidableEq, Repr

/-- A released record was observed first, with its operator dead. -/
def BarrierOp.perform (root : String) (world : MaintenanceRoot) : BarrierOp → Checked Outcome
  | .begin operator => MaintenanceBarrier.begin root world operator
  | .retarget expected interpreter => MaintenanceBarrier.retarget root world expected interpreter
  | .advance expected phase => MaintenanceBarrier.advance root world expected phase
  | .clear expected => MaintenanceBarrier.clear root world expected
  | .releaseDead expected => MaintenanceBarrier.observed root world (some expected)

def BarrierOp.expected : BarrierOp → Option MaintenanceState
  | .begin _ => none
  | .retarget expected _ | .advance expected _ | .clear expected
  | .releaseDead expected => some expected

def BarrierOp.hold (root : String) (world : MaintenanceRoot) (op : BarrierOp) :
    Option MaintenanceState :=
  match op.perform root world with
  | .ok outcome => outcome.hold
  | .error _ => none

/-- An operation that stops after some of its writes, or the end of a process. -/
inductive BarrierEvent where
  | call (op : BarrierOp) (writes : Nat)
  | exit (operator : MaintenanceOperator)
deriving DecidableEq, Repr

namespace MaintenanceRoot

def start : MaintenanceRoot := ⟨⟨none, none, none⟩, 0, [], []⟩

def write (world : MaintenanceRoot) (hold : MaintenanceState) (writes : Nat) : MaintenanceRoot where
  files := (hold.writes.take writes).foldl WitnessFiles.replace world.files
  minted := world.minted + 1
  dead := world.dead
  completed := if 3 ≤ writes then hold :: world.completed else world.completed

def step (root : String) (world : MaintenanceRoot) : BarrierEvent → MaintenanceRoot
  | .call op writes =>
    match op.hold root world with
    | some hold => world.write hold writes
    | none => world
  | .exit operator => { world with dead := operator :: world.dead }

def reached (root : String) (events : List BarrierEvent) : MaintenanceRoot :=
  events.foldl (step root) start

end MaintenanceRoot

end AgentComms.Maintenance
