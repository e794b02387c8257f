import AgentComms.Claims.Transitions

/-!
# The held-resource and operation tables

A claim record is prepared against the whole claim table and a registry
snapshot, appended to the log, and then projected onto two derived tables: which
transition holds each resource, and which transition consumed each operation.
The routine that writes the tables reads only the rows of the transition's own
resources.
-/

namespace AgentComms.Claims

open Library Registry

/-- The log, with the claim transition of each record that has one, and its two
derived tables. Sequences count from one. -/
structure ClaimBus where
  records : List (Option ClaimTransition)
  /-- `HeldResources`: the claim sequence that holds each resource. -/
  held : Dict String Nat
  /-- `ClaimOperations`: the claim sequence that consumed each operation. -/
  operations : Dict String Nat
deriving DecidableEq

/-- A transition before its sequence is known: what the record builder is given. -/
structure Draft where
  owner : Name
  incarnation : Nat
  messageId : String
  change : ClaimChange
deriving DecidableEq

def Draft.build (draft : Draft) (seq : Nat) : Checked ClaimTransition :=
  ClaimTransition.make draft.owner draft.incarnation seq draft.messageId draft.change

/-- `HeldResources.project`: the rows it starts from are its caller's. -/
def ClaimTransition.projectFrom (self : ClaimTransition) (isUsed : String → Bool)
    (before : Checked ClaimProjection) : Checked ClaimProjection :=
  match (do
      self.requireNewOperation isUsed
      self.project (← before)) with
  | .ok projected => .ok projected
  | .error (.transition _) | .error (.conflict _) | .error (.identityConflict _) =>
    .error (.relationViolation "Committed claim transition is inconsistent.")
  | .error error => .error error

namespace ClaimBus

variable {bus after : ClaimBus} {resource : String} {holder : ClaimOwner}
  {transition : ClaimTransition} {record : Option ClaimTransition}
  {previous projected : ClaimProjection}

def empty : ClaimBus := ⟨[], Dict.empty, Dict.empty⟩

section

variable (bus : ClaimBus)

def lastSeq : Nat := bus.records.length

def nextSeq : Nat := bus.lastSeq + 1

def transitionAt : Nat → Option ClaimTransition
  | 0 => none
  | index + 1 => bus.records[index]?.join

/-- `SELECT COALESCE(MAX(seq), 0)` over the claim rows up to `through`. -/
def lastClaim (bus : ClaimBus) : Nat → Nat
  | 0 => 0
  | seq + 1 => if (bus.transitionAt (seq + 1)).isSome then seq + 1 else bus.lastClaim seq

/-! ### Reading the tables -/

def ownerFor (resource : String) : Checked (Option ClaimOwner) :=
  match (bus.held.get? resource).bind bus.transitionAt with
  | some transition => do
      let holder ← transition.claimed resource
      pure (some holder)
  | none => pure none

/-- `HeldResources._project`. -/
def projectRows (current : Dict String Nat) (through : Nat) : Checked ClaimProjection := do
  let claims ← current.traverse fun resource claimSeq => do
    let transition ← orRefuse (bus.transitionAt claimSeq) (.keyError claimSeq)
    transition.claimed resource
  ClaimProjection.build (bus.lastClaim through) claims

def allClaims : Checked ClaimProjection :=
  bus.projectRows bus.held bus.lastSeq

def claimsFor (resources : List String) (through : Nat) : Checked ClaimProjection :=
  bus.projectRows (bus.held.filter fun resource _ => resource ∈ resources) through

/-- `ClaimOperations.used`. -/
def operationUsed (operationId : String) : Bool :=
  operationId ∈ bus.operations

/-! ### Preparing and appending -/

def prepareClaim (transition : ClaimTransition) (cut : RegistryCut) : Checked ClaimTransition := do
  let previous ← bus.allClaims
  let projected ← transition.apply previous cut
  transition.requireNewOperation bus.operationUsed
  let expired := previous.claims.keys.filter fun resource =>
    resource ∉ projected.claims ∧ resource ∉ transition.resources
  pure { transition with expired := expired.insertionSort (· ≤ ·) }

def projectHeld (transition : ClaimTransition) : Checked ClaimProjection :=
  transition.projectFrom bus.operationUsed (bus.claimsFor transition.resources (transition.seq - 1))

/-- `ClaimHolders.apply`: delete the named and expired rows, insert the projected ones. -/
def applyHeld (transition : ClaimTransition) (projected : ClaimProjection) : Checked ClaimBus := do
  let deleted := bus.held.filter fun resource _ =>
    resource ∉ transition.resources ++ transition.expired
  let held ← projected.claims.values.foldlM (fun held holder =>
    held.insertNew holder.resource holder.seq (.relationViolation "UNIQUE constraint failed"))
    deleted
  let operations ← transition.operationIds.foldlM (fun operations operationId =>
    operations.insertNew operationId transition.seq (.relationViolation "UNIQUE constraint failed"))
    bus.operations
  pure { bus with held := held, operations := operations }

/-- `BusRecord.append_to` of a claim record. -/
def append (transition : ClaimTransition) : Checked ClaimBus := do
  let logged := { bus with records := bus.records ++ [some transition] }
  let projected ← logged.projectHeld transition
  logged.applyHeld transition projected

def publish (cut : RegistryCut) (draft : Draft) : Checked ClaimBus := do
  let transition ← draft.build bus.nextSeq
  let prepared ← bus.prepareClaim transition cut
  bus.append prepared

/-- `ClaimOwner.acquire`'s question: does the holder already serve this scope? -/
def reusable (resource : String) (claim : RecordedScope)
    (snapshot : RegistrySnapshot) (env : Environment) : Checked (Option ClaimOwner) := do
  match ← bus.ownerFor resource with
  | none => pure none
  | some holder =>
    if holder.resourceScope.reuses claim then do
      let live ← (holder.live snapshot env).mapError .registry
      pure (if live then some holder else none)
    else pure none

/-- The process table is read once for the holder and again, as `cut` found it, when the record
is prepared. -/
def acquireResourceClaim (resource : String) (claim : RecordedScope)
    (env : Environment) (cut : RegistryCut) (draft : Draft) : Checked (ClaimOwner × ClaimBus) := do
  match ← bus.reusable resource claim cut.snapshot env with
  | some holder => pure (holder, bus)
  | none => do
      let published ← bus.publish cut draft
      let transition ← orRefuse (published.transitionAt bus.nextSeq) (.keyError bus.nextSeq)
      let holder ← transition.claimed resource
      pure (holder, published)

end

/-! ### Reads after an append -/

theorem transitionAt_of_le {seq : Nat} {more : List (Option ClaimTransition)}
    (hrecords : after.records = bus.records ++ more) (hle : seq ≤ bus.lastSeq) :
    after.transitionAt seq = bus.transitionAt seq := by
  cases seq with
  | zero => rfl
  | succ index => rw [transitionAt, transitionAt, hrecords, List.getElem?_append_left hle]

theorem transitionAt_append {seq : Nat} {more : List (Option ClaimTransition)}
    (hat : bus.transitionAt seq = some transition) (hrecords : after.records = bus.records ++ more) :
    after.transitionAt seq = some transition := by
  rw [transitionAt_of_le hrecords, hat]
  cases seq with
  | zero => cases hat
  | succ index =>
    rw [transitionAt, Option.join_eq_some_iff] at hat
    exact (List.getElem?_eq_some_iff.mp hat).1

theorem transitionAt_nextSeq (hrecords : after.records = bus.records ++ [record]) :
    after.transitionAt bus.nextSeq = record := by
  show after.records[bus.records.length]?.join = record
  rw [hrecords, List.getElem?_concat_length]
  rfl

/-- A transition in the longer log was there before, or is the new record's. -/
theorem transitionAt_cases (hrecords : after.records = bus.records ++ [record]) {seq : Nat}
    (hat : after.transitionAt seq = some transition) :
    bus.transitionAt seq = some transition ∨ seq = bus.nextSeq ∧ record = some transition := by
  cases seq with
  | zero => cases hat
  | succ index =>
    simp only [transitionAt, Option.join_eq_some_iff] at hat ⊢
    rw [hrecords, List.getElem?_append] at hat
    split at hat
    · exact .inl hat
    · obtain ⟨hlt, hrecord⟩ := List.getElem?_eq_some_iff.mp hat
      have hindex : index = bus.records.length := by
        rw [List.length_singleton] at hlt
        omega
      subst hindex
      exact .inr ⟨rfl, by simpa using hrecord⟩

end ClaimBus

end AgentComms.Claims
