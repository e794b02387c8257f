import AgentComms.Inputs.Attempts

/-!
# The input store

`InputDocument` and the operations of `InputDispositions` (`input_disposition.py`). An
operation selects the rows it names, changes that document, and writes the changed rows
back in one transaction; a refusal writes nothing. The coordinator's unconfirmed harness
attempts, which some operations read first, are an arbitrary list of reservations, and an
operation that reads before its transaction is followed here by that transaction.
-/

namespace AgentComms.Inputs

open Library
open Registry (TurnLeaseFence RegistrySnapshot RegistryError)

variable {Origin Digest : Type} [DecidableEq Origin] [DecidableEq Digest]

/-- A reservation: an original that no operation has moved. -/
structure ReservedInput (Origin : Type) extends Original Origin where
  noticeDismissed : Bool
  goalReviews : Dict String GoalInputDecision
deriving DecidableEq

def ReservedInput.stored (row : ReservedInput Origin) : StoredInput Origin Digest where
  toOriginal := row.toOriginal
  noticeDismissed := row.noticeDismissed
  goalReviews := row.goalReviews
  state := .reserved

abbrev InputRows (Origin Digest : Type) := Dict InputKey (StoredInput Origin Digest)

structure InputDocument (Origin Digest : Type) where
  rows : InputRows Origin Digest
  keyed : ∀ entry ∈ rows.entries, entry.2.key = entry.1

namespace InputDocument

def empty : InputDocument Origin Digest := ⟨Dict.empty, fun _ hentry => by cases hentry⟩

def make (rows : InputRows Origin Digest) : Checked (InputDocument Origin Digest) :=
  if hkeyed : ∀ entry ∈ rows.entries, entry.2.key = entry.1 then .ok ⟨rows, hkeyed⟩
  else .error (.valueError "Input document key differs from its attempt")

variable (document : InputDocument Origin Digest)

def lookup (key : InputKey) : InputAttempt Origin Digest := document.rows.get? key

def select (where_ : StoredInput Origin Digest → Bool) : InputDocument Origin Digest where
  rows := document.rows.filter fun _ row => where_ row
  keyed := fun entry hentry => document.keyed entry (List.mem_filter.mp hentry).1

/-- An existing original cannot be replaced by another reservation. -/
def record (originals : List (ReservedInput Origin)) : Checked (InputDocument Origin Digest) :=
  make (originals.foldl (fun rows row =>
    if row.key ∈ rows then rows else rows.set row.key row.stored) document.rows)

/-- Each original state decides its successor; unchanged rows stay intact. -/
def successors (keys : List InputKey)
    (change : InputAttempt Origin Digest → Checked (InputTransition Digest)) :
    Checked (InputRows Origin Digest) :=
  keys.foldlM (fun rows key => do
    let result ← change (document.lookup key)
    pure (match (document.lookup key).successor result with
      | some row => rows.set key row
      | none => rows)) Dict.empty

def transition (keys : List InputKey)
    (change : InputAttempt Origin Digest → Checked (InputTransition Digest)) :
    Checked (InputDocument Origin Digest) := do
  let successors ← document.successors keys change
  make (document.rows.update successors)

/-- `InputDocument.originals` refuses duplicate and missing keys. -/
def requireOriginals (keys : List InputKey) : Checked Unit := do
  require keys.Nodup (.valueError "Original input membership contains duplicate keys")
  require (∀ key ∈ keys, key ∈ document.rows)
    (.valueError "Original input acknowledgement is unavailable")

def order (row : StoredInput Origin Digest) : Bool × Int :=
  (row.sequence.isNone, row.sequence.getD 0)

def before (row other : StoredInput Origin Digest) : Bool :=
  match order row, order other with
  | (false, _), (true, _) => true
  | (true, _), (false, _) => false
  | (_, sequence), (_, sequence') => sequence ≤ sequence'

def unknown (owners : List String) : List (StoredInput Origin Digest) :=
  (document.rows.values.filter fun row => row.state.unresolved && row.owner ∈ owners).mergeSort
    before

end InputDocument

/-! ### Operations -/

/-- Which unresolved rows are notices of earlier input. -/
inductive InputDeliveryScope where
  | unobserved
  | ownerQueue (keys : List InputKey)
deriving DecidableEq, Repr

def InputDeliveryScope.historicalNotice (row : StoredInput Origin Digest) :
    InputDeliveryScope → Bool
  | .unobserved => row.noticeDismissed
  | .ownerQueue keys => row.key ∉ keys

/-- What a context acknowledgement is checked against: the lease, the registry, and the
live lease of the thread (`Thread.require_turn_lease`). -/
structure ContextClaim where
  lease : TurnLeaseFence
  snapshot : RegistrySnapshot
  liveLease : Checked TurnLeaseFence
  sentText : String
  context : NativeContextProof

/-- Leases are compared without the thread's name. -/
def sameLease (lease other : TurnLeaseFence) : Bool :=
  lease.birth = other.birth && lease.generation = other.generation &&
    lease.turnId = other.turnId && lease.claimedGeneration = other.claimedGeneration

/-- The lease is the live one of its thread, under the thread's claim. -/
def ContextClaim.requireLive (claim : ContextClaim) : Checked Unit := do
  let owner ← (claim.snapshot.requireThread claim.lease.name).mapError .registry
  let live ← claim.liveLease
  let claimed ← (claim.snapshot.claimGeneration owner.name).mapError .registry
  require (sameLease live claim.lease ∧ claimed = claim.lease.claimedGeneration)
    (.relationViolation "Context acknowledgement lost its original live turn lease")

namespace InputDispositions

variable (digest : String → Digest) (store : InputDocument Origin Digest)

def write (changed : InputDocument Origin Digest) : InputDocument Origin Digest where
  rows := store.rows.update changed.rows
  keyed := by
    intro entry hentry
    have hget := Dict.mem_entries.mp hentry
    rw [Dict.get?_update] at hget
    rcases Option.or_eq_some_iff.mp hget with hchanged | ⟨-, hstored⟩
    · exact changed.keyed entry (Dict.mem_entries.mpr hchanged)
    · exact store.keyed entry (Dict.mem_entries.mpr hstored)

def update {Answer : Type} (where_ : StoredInput Origin Digest → Bool)
    (change : InputDocument Origin Digest → Checked (InputDocument Origin Digest × Answer)) :
    Checked (InputDocument Origin Digest × Answer) := do
  let (changed, answer) ← change (store.select where_)
  pure (write store changed, answer)

variable (keys : List InputKey)

/-- `key IN (...)`. -/
def keyIn (row : StoredInput Origin Digest) : Bool := row.key ∈ keys

def recordOriginals (originals : List (ReservedInput Origin)) :
    Checked (InputDocument Origin Digest × InputDocument Origin Digest) :=
  update store (keyIn (originals.map fun row => row.key)) fun document => do
    let changed ← document.record originals
    pure (changed, changed)

/-- The reservations are written before an existing one is refused. -/
def reserveOriginals (originals : List (ReservedInput Origin)) :
    Checked (InputDocument Origin Digest × Checked (InputDocument Origin Digest)) := do
  let (written, document) ← recordOriginals store originals
  pure (written,
    if originals.Pairwise (fun row other => row.key ≠ other.key) ∧
        ∀ row ∈ originals, row.key ∉ store.rows then .ok document
    else .error (.relationViolation "Input reservation already exists"))

def bindOriginals (send : NativeSend) : Checked (InputDocument Origin Digest × Bool) :=
  update store (keyIn keys) fun document =>
    if keys = [] ∨ ¬ keys.Nodup then .ok (document, false)
    else do
      let successors ← document.successors keys fun attempt => attempt.bind digest send
      if ∀ key ∈ keys, key ∈ successors then do
        let bound ← InputDocument.make (document.rows.update successors)
        pure (bound, true)
      else pure (document, false)

/-- A read, and the bind that follows it in its own transaction. -/
def bindTurnInput (send : NativeSend) (alreadyBound : Bool) :
    Checked (InputDocument Origin Digest × Bool) := do
  let document := store.select (keyIn keys)
  document.rows.values.forM fun row => InputAttempt.requireNotCleared (some row)
  if ∃ key ∈ keys, (document.lookup key).unresolvedClaim send.claimScope = false then
    pure (store, false)
  else if alreadyBound then
    pure (store, keys.all fun key =>
      (document.lookup key).matchesNative digest send.turnId send.nativeId send.text)
  else bindOriginals digest store keys send

def started (key : InputKey) (turnId nativeId text : String) :
    Checked (InputDocument Origin Digest × InputDocument Origin Digest) :=
  update store (keyIn [key]) fun document => do
    let changed ← document.transition [key] fun attempt =>
      .ok (attempt.started digest turnId nativeId text)
    pure (changed, changed)

def clearUnbound (keys : List InputKey) :
    Checked (InputDocument Origin Digest × InputDocument Origin Digest) :=
  update store (keyIn keys) fun document => do
    let changed ← document.transition keys fun attempt => .ok attempt.clearUnbound
    pure (changed, changed)

def clearNative (key : InputKey) (nativeId text : String) :
    Checked (InputDocument Origin Digest × InputDocument Origin Digest) :=
  update store (keyIn [key]) fun document => do
    let changed ← document.transition [key] fun attempt =>
      (attempt.clearNative digest nativeId text).requireMoved
        "Native clear differs from its original input"
    pure (changed, changed)

def settleUnbound : Checked (InputDocument Origin Digest × InputDocument Origin Digest) :=
  update store (keyIn keys) fun document => do
    let changed ← document.transition keys fun attempt => .ok attempt.finishUnbound
    pure (changed, changed)

def contextCommitted (keys : List InputKey) (claim : ContextClaim) :
    Checked (InputDocument Origin Digest × InputDocument Origin Digest) := do
  require (keys ≠ [])
    (.relationViolation "Context acknowledgement has no original input keys")
  update store (keyIn keys) fun document => do
    claim.requireLive
    document.requireOriginals keys
    let changed ← document.transition keys fun attempt =>
      attempt.contextCommitted digest claim.lease claim.sentText claim.context claim.snapshot
    pure (changed, changed)

/-- Rows the caller observed join the selection when they are not stored. -/
def observe (rows : InputRows Origin Digest)
    (row : StoredInput Origin Digest) : Checked (InputRows Origin Digest) := do
  require (row.key ∈ keys ∧ (rows.get? row.key = none ∨ rows.get? row.key = some row))
    (.valueError "Reviewed inputs changed; inspect them again.")
  pure (if row.key ∈ rows then rows else rows.set row.key row)

def reviewForGoal (owners : List String) (goalId : String)
    (decision : GoalInputDecision) (observed : List (StoredInput Origin Digest)) :
    Checked (InputDocument Origin Digest × InputDocument Origin Digest) :=
  update store (keyIn keys) fun document => do
    let rows ← observed.foldlM (observe keys) document.rows
    require (∀ key ∈ keys, (rows.get? key).any fun row => row.owner ∈ owners)
      (.valueError "Reviewed inputs changed; inspect them again.")
    if keys = [] then pure (document, document)
    else do
      let reviews ← keys.foldlM (fun reviews key => do
        let row ← orRefuse (rows.get? key)
          (.valueError "Reviewed inputs changed; inspect them again.")
        let reviewed ← row.review goalId decision
        pure (reviews.set key reviewed)) Dict.empty
      let changed ← InputDocument.make (rows.update reviews)
      pure (changed, changed)

/-- Unresolved rows, and every row of an attempted key. -/
def ownedOrAttempted (owners : List String) (attempted : List (ReservedInput Origin))
    (row : StoredInput Origin Digest) : Bool :=
  row.state.unresolved && row.owner ∈ owners || row.key ∈ attempted.map fun row => row.key

/-- Dismissing an uncertain attempt stores it, dismissed. -/
def dismissHistorical (owners : List String) (attempted : List (ReservedInput Origin))
    (scope : InputDeliveryScope) :
    Checked (InputDocument Origin Digest × InputDocument Origin Digest) :=
  update store (ownedOrAttempted owners attempted) fun document => do
    let recorded ← document.record attempted
    let notices := (recorded.unknown owners).filter fun row =>
      scope.historicalNotice row && !row.noticeDismissed
    let changed ← InputDocument.make (document.rows.update
      (notices.foldl (fun rows row => rows.set row.key row.dismissed) Dict.empty))
    pure (changed, changed)

/-- Stored unresolved inputs plus uncertain attempts with no stored row. -/
def unresolved (owners : List String) (attempted : List (ReservedInput Origin)) :
    Checked (InputDocument Origin Digest) := do
  let document ← (store.select (ownedOrAttempted owners attempted)).record attempted
  InputDocument.make
    ((document.unknown owners).foldl (fun rows row => rows.set row.key row) Dict.empty)

end InputDispositions

inductive InputOp (Origin Digest : Type) where
  | recordOriginals (originals : List (ReservedInput Origin))
  | reserveOriginals (originals : List (ReservedInput Origin))
  | bindOriginals (keys : List InputKey) (send : NativeSend)
  | bindTurnInput (keys : List InputKey) (send : NativeSend) (alreadyBound : Bool)
  | started (key : InputKey) (turnId nativeId text : String)
  | clearUnbound (keys : List InputKey)
  | clearNative (key : InputKey) (nativeId text : String)
  | settleUnbound (keys : List InputKey)
  | contextCommitted (keys : List InputKey) (claim : ContextClaim)
  | reviewForGoal (keys : List InputKey) (owners : List String) (goalId : String)
      (decision : GoalInputDecision) (observed : List (StoredInput Origin Digest))
  | dismissHistorical (owners : List String) (attempted : List (ReservedInput Origin))
      (scope : InputDeliveryScope)

def InputOp.step (digest : String → Digest) (op : InputOp Origin Digest)
    (store : InputDocument Origin Digest) : Checked (InputDocument Origin Digest) :=
  match op with
  | .recordOriginals originals => Prod.fst <$> InputDispositions.recordOriginals store originals
  | .reserveOriginals originals => Prod.fst <$> InputDispositions.reserveOriginals store originals
  | .bindOriginals keys send => Prod.fst <$> InputDispositions.bindOriginals digest store keys send
  | .bindTurnInput keys send alreadyBound =>
    Prod.fst <$> InputDispositions.bindTurnInput digest store keys send alreadyBound
  | .started key turnId nativeId text =>
    Prod.fst <$> InputDispositions.started digest store key turnId nativeId text
  | .clearUnbound keys => Prod.fst <$> InputDispositions.clearUnbound store keys
  | .clearNative key nativeId text =>
    Prod.fst <$> InputDispositions.clearNative digest store key nativeId text
  | .settleUnbound keys => Prod.fst <$> InputDispositions.settleUnbound store keys
  | .contextCommitted keys claim =>
    Prod.fst <$> InputDispositions.contextCommitted digest store keys claim
  | .reviewForGoal keys owners goalId decision observed =>
    Prod.fst <$> InputDispositions.reviewForGoal store keys owners goalId decision observed
  | .dismissHistorical owners attempted scope =>
    Prod.fst <$> InputDispositions.dismissHistorical store owners attempted scope

end AgentComms.Inputs
