import AgentComms.Registry.Authority

/-!
# Turn files

Each turn generation of a birth has a file beside the registry (`turn_lease.py`): the
turn's id, the claim and the generation it was leased with, and its phase
(`turn_phase.py`). A lease writes the file before the registry names it and retires the
file of the generation before; an operation that takes the claim away drops the claim in
the file; a phase change goes through only while the registry names the generation and
the file is held by the lease.

A `TurnRegistry` is the document with these files, the leases issued so far and those
whose release was answered `True`. Its events are the operations of the registry, and
what an edit that raises or a process that dies leaves behind: a dropped claim or a
written file that no saved document knows.
-/

namespace AgentComms.Registry

open Library

/-! ### Phases -/

inductive TurnPhase where
  | promptAcceptance (detail : String)
  | preparing (detail : String)
  | idle (detail : String)
  | failed (detail error : String)
  | cancelling (detail : String)
  | shutdown (detail : String)
  | publishing (detail : String)
  | modelWait (detail : String)
  | settlingStats (detail : String)
  | compaction (detail : String) (resume : TurnPhase)
  | providerRetry (detail : String)
  | summarizationRetry (detail : String)
  | toolRunning (detail : String) (tools : List (String × String))
deriving DecidableEq, Repr

namespace TurnPhase

/-- The members of `ClosingTurn`. -/
def closing : TurnPhase → Bool
  | failed _ _ | cancelling _ | shutdown _ | publishing _ => true
  | _ => false

def keepsProjectResume : TurnPhase → Bool
  | cancelling _ => false
  | _ => true

/-- A native observation cannot reopen a closing turn. -/
def observed (current phase : TurnPhase) : TurnPhase :=
  if current.closing then current else phase

end TurnPhase

/-! ### Files -/

structure TurnFile where
  id : String
  startedAt : Time
  claimedGeneration : Option Nat
  turnGeneration : Option Nat
  phase : TurnPhase
deriving DecidableEq, Repr

namespace TurnFile

def active (file : TurnFile) : ActiveTurn where
  id := file.id
  startedAt := file.startedAt
  claimedGeneration := file.claimedGeneration
  turnGeneration := file.turnGeneration
  keepsProjectResume := file.phase.keepsProjectResume

def withoutClaim (file : TurnFile) : TurnFile := { file with claimedGeneration := none }

/-- `phase_effects`, through `native_phase_effects` for a native observation. -/
def entering (file : TurnFile) (phase : TurnPhase) (native : Bool) : TurnFile :=
  { file with phase := if native then file.phase.observed phase else phase }

end TurnFile

abbrev TurnFiles := Dict (Nat × Nat) TurnFile

def Thread.turnIdentity (thread : Thread) : Nat × Nat := (thread.birth, thread.turnGeneration)

def TurnLeaseFence.identity (lease : TurnLeaseFence) : Nat × Nat := (lease.birth, lease.generation)

def missingTurn (identity : Nat × Nat) : RegistryError :=
  .relationViolation ("Active turn record is missing: turns/" ++ toString identity.1 ++ "-" ++
    toString identity.2 ++ ".json")

namespace RegistryPresence

def holdsTurn (names : RegistryPresence) (lease : TurnLeaseFence) : Bool :=
  match names.threads.get? (names.canonicalName lease.name) with
  | some thread => thread.turnIdentity = lease.identity
  | none => false

def currentTurn (names : RegistryPresence) (birth generation : Nat) : TurnRecord :=
  match names.threads.values.find? fun thread => thread.birth = birth with
  | some thread => thread.turnRecord
  | none => .stored birth generation

end RegistryPresence

namespace RegistryDocument

def namesTurn (document : RegistryDocument) (identity : Nat × Nat) : Bool :=
  document.threads.values.any fun thread =>
    thread.turnIdentity = identity && thread.turnRecord = .stored identity.1 identity.2

/-- A row keeps the reference and the claim it had: neither `install_thread` nor
`advance_claim` dropped the claim of its turn. -/
def keepsGrant (before after : RegistryDocument) (thread : Thread) : Bool :=
  after.threads.values.any fun kept =>
    kept.birth = thread.birth && kept.turnRecord = thread.turnRecord &&
      after.claims.generations.get? kept.name = before.claims.generations.get? thread.name

/-- The edit called `without_claim` on the reference of the row that names this turn. -/
def revokes (before after : RegistryDocument) (identity : Nat × Nat) : Bool :=
  before.threads.values.any fun thread =>
    thread.turnIdentity = identity && thread.turnRecord = .stored identity.1 identity.2 &&
      !before.keepsGrant after thread

end RegistryDocument

theorem bound_accepted (thread : Thread) (hlive : thread.executing = true) :
    ({ thread.toThreadFields with
      turnRecord := .stored thread.birth thread.turnGeneration } : ThreadFields).check = .ok () := by
  have haccepted := thread.accepted
  unfold Thread.executing at hlive
  cases hrecord : thread.turnRecord with
  | stored =>
    simp only [ThreadFields.check, hrecord] at haccepted ⊢
    exact haccepted
  | noTurnRecord | finishedTurn =>
    rw [hrecord] at hlive
    cases hlive

/-- `RegistryStore._bind_thread`: a decoded reference is that of its row's own turn. -/
def Thread.bound (thread : Thread) : Thread :=
  if hlive : thread.executing = true then
    ⟨{ thread.toThreadFields with
      turnRecord := .stored thread.birth thread.turnGeneration }, bound_accepted thread hlive⟩
  else thread

def RegistryDocument.bound (document : RegistryDocument) : RegistryDocument :=
  { document with threads := document.threads.mapValues fun _ thread => thread.bound }

/-! ### Events -/

structure TurnRegistry where
  document : RegistryDocument
  files : TurnFiles
  issued : List TurnLeaseFence
  released : List TurnLeaseFence

/-- A lease and a release are events of their own. -/
def RegistryOp.changesTurn : RegistryOp → Bool
  | .leaseTurn _ | .releaseTurn _ => true
  | _ => false

inductive TurnEvent where
  | edit (env : Environment) (op : RegistryOp)
  | lease (env : Environment) (name : Name) (turnId : String)
  | release (env : Environment) (lease : TurnLeaseFence)
  /-- `transition`, or `observe_native_phase` when native. -/
  | phase (lease : TurnLeaseFence) (phase : TurnPhase) (native : Bool)
  /-- An edit stopped after `without_claim`. -/
  | dropped (identity : Nat × Nat)
  /-- A lease stopped before the registry was saved. -/
  | unsaved (env : Environment) (name : Name) (turnId : String)
  /-- A lease stopped before it retired the superseded file. -/
  | retained (env : Environment) (name : Name) (turnId : String)

namespace TurnRegistry

def empty : TurnRegistry := ⟨RegistryDocument.empty, Dict.empty, [], []⟩

variable (registry : TurnRegistry)

def read (identity : Nat × Nat) : Checked TurnFile :=
  orRefuse (registry.files.get? identity) (missingTurn identity)

def readTurn (birth generation : Nat) : Checked (Option ActiveTurn) :=
  match registry.document.currentTurn birth generation with
  | .stored birth generation => do
      let file ← registry.read (birth, generation)
      pure (some file.active)
  | _ => .ok none

/-- The environment of an operation on this registry reads its turn files. -/
def reading (env : Environment) : Environment := { env with readTurn := registry.readTurn }

def revoked (edited : RegistryDocument) : TurnFiles :=
  registry.files.mapValues fun identity file =>
    if registry.document.revokes edited identity then file.withoutClaim else file

def edit (env : Environment) (op : RegistryOp) : Checked TurnRegistry := do
  let edited ← RegistryOp.perform (registry.reading env, op) registry.document
  -- every revoked reference has a file to rewrite
  registry.document.threads.values.forM fun thread =>
    require (registry.document.revokes edited thread.turnIdentity = false ∨
      thread.turnIdentity ∈ registry.files) (missingTurn thread.turnIdentity)
  pure { registry with document := edited.bound, files := registry.revoked edited }

/-- The file `lease_turn` begins, and the lease that its holder reads from it. -/
def begin (env : Environment) (name : Name) (turnId : String) :
    Checked (RegistryDocument × TurnFile × TurnLeaseFence) := do
  let (leased, thread, _) ← registry.document.leaseTurn (registry.reading env) name
  let claimed ← orRefuse (registry.document.claims.generations.get? thread.name)
    (.keyError thread.name)
  pure (leased,
    ⟨turnId, env.now, some claimed, some thread.turnGeneration, .preparing ""⟩,
    ⟨thread.name, thread.birth, thread.turnGeneration, turnId, claimed⟩)

/-- `lease_turn` and `commit`, up to the retirement of the superseded file. -/
def leaseRetained (env : Environment) (name : Name) (turnId : String) :
    Checked (TurnRegistry × TurnLeaseFence) := do
  let (leased, file, lease) ← registry.begin env name turnId
  pure ({ registry with
    document := leased
    files := registry.files.set lease.identity file
    issued := lease :: registry.issued }, lease)

def retire (lease : TurnLeaseFence) : TurnRegistry :=
  if lease.generation = 1 then registry
  else { registry with files := registry.files.erase (lease.birth, lease.generation - 1) }

def lease (env : Environment) (name : Name) (turnId : String) : Checked TurnRegistry := do
  let (leased, lease) ← registry.leaseRetained env name turnId
  pure (leased.retire lease)

def withoutClaim (identity : Nat × Nat) : TurnFiles :=
  registry.files.mapValues fun key file => if key = identity then file.withoutClaim else file

def release (env : Environment) (lease : TurnLeaseFence) :
    Checked (TurnRegistry × Bool × Option TurnLeaseFence) := do
  let (edited, released, completion) ← registry.document.releaseTurn (registry.reading env) lease
  pure (if released then
    { registry with
      document := edited
      files := registry.withoutClaim lease.identity
      released := lease :: registry.released }
    else registry, released, completion)

/-- `NamedTurn.effects` and `RetiredTurn.effects`. -/
def changePhase (lease : TurnLeaseFence) (phase : TurnPhase) (native : Bool) :
    Checked TurnRegistry :=
  if registry.document.holdsTurn lease then do
    let file ← registry.read lease.identity
    pure (if file.active.heldBy lease then
      { registry with files := registry.files.set lease.identity (file.entering phase native) }
      else registry)
  else .ok registry

/-- One event. A lease can be used once it was issued. -/
def step : TurnEvent → TurnRegistry → Checked TurnRegistry
  | .edit env op, registry => if op.changesTurn then .ok registry else registry.edit env op
  | .lease env name turnId, registry => registry.lease env name turnId
  | .release env lease, registry =>
    if lease ∈ registry.issued then Prod.fst <$> registry.release env lease else .ok registry
  | .phase lease phase native, registry =>
    if lease ∈ registry.issued then registry.changePhase lease phase native else .ok registry
  | .dropped identity, registry =>
    .ok (if registry.document.namesTurn identity then
      { registry with files := registry.withoutClaim identity } else registry)
  | .unsaved env name turnId, registry => do
      let (_, file, lease) ← registry.begin env name turnId
      pure { registry with files := registry.files.set lease.identity file }
  | .retained env name turnId, registry =>
    Prod.fst <$> registry.leaseRetained env name turnId

def reached (events : List TurnEvent) : TurnRegistry := run step events empty

end TurnRegistry

end AgentComms.Registry
