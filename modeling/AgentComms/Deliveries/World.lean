import AgentComms.Coordination.Lifecycle
import AgentComms.Inputs.Bound

/-!
# Messages for a running turn

A pending bus message may be handed to its recipient's running turn
(`queued_input.py`): its input row is reserved in the input store, its claim is paused in
the coordinator, and the live queue of the owner's process holds it until the native turn
binds, starts or refuses it. The two stores commit separately, so each step below is one
transaction of one store, or one move of the live queue; steps of all owners interleave
with one another and with every other transaction of the coordinator, and a crash of an
owner drops everything its process held in memory.
-/

namespace AgentComms.Deliveries

open Library Coordination Inputs

/-- `input_origin.py`: the bus message an input was made from, if any. -/
inductive InputOrigin where
  | wire (rootId : String) (reference : MessageReference)
  | unattributed
deriving DecidableEq

/-- What the registry and the bus say during a run: the thread a recorded name selects, when
a thread was created, and whether a message is a direct one. -/
structure Setting (Digest : Type) where
  digest : String → Digest
  resolve : String → Option ThreadLookup
  created : ThreadLookup → Nat
  direct : MessageReference → Bool

def Setting.busKey {Digest : Type} (setting : Setting Digest) (owner : ThreadLookup)
    (reference : MessageReference) : InputKey :=
  if setting.direct reference then .bus reference.seq
  else .ownedBus reference.seq (setting.created owner)

/-! ### Live state of an owner -/

/-- Where a `DeliveredInput` of a live process is. -/
inductive Phase where
  /-- Its row is reserved; its claim is not paused yet. -/
  | reserved
  /-- Its reservation failed and rolls its row back. -/
  | failing
  /-- Its claim is paused; it is not placed yet. -/
  | paused
  /-- It is in the queue of the turn. -/
  | queued
  /-- It left the queue, and `not_started` begins. -/
  | retiring
  /-- `not_started` found no native binding. -/
  | retired
deriving DecidableEq, Repr

/-- `assignment` is the claim as read until it is paused, and then as paused. -/
structure Item where
  key : InputKey
  assignment : WakeAssignment
  phase : Phase
deriving DecidableEq

/-- The phases of `reserve_pending`, which runs under the queue lock. -/
def Phase.reserving : Phase → Bool
  | reserved | failing | paused => true
  | queued | retiring | retired => false

/-- How far a `_recover_locked` has come. -/
inductive Recovery where
  | started
  | read (rows : List (MessageReference × InputKey))
  | selected (rows : List (MessageReference × InputKey)) (assignments : List WakeAssignment)
  | settled (assignments : List WakeAssignment)

/-- The queue lock of the owner's process. -/
inductive QueueLock where
  | free
  | delivering
  | recovering (rootId : String) (liveKeys : List InputKey) (recovery : Recovery)

structure Session where
  lock : QueueLock
  reads : List WakeAssignment
  items : List Item

namespace Session

def fresh : Session := ⟨.free, [], []⟩

variable (session : Session)

def item? (key : InputKey) (phase : Phase) : Option Item :=
  session.items.find? fun item => item.key == key && item.phase == phase

def move (key : InputKey) (assignment : WakeAssignment) (phase : Phase) : Session :=
  { session with items := session.items.map fun item =>
      if item.key = key then { item with assignment, phase } else item }

def drop (key : InputKey) : Session :=
  { session with items := session.items.filter fun item => item.key ≠ key }

def liveKeys : List InputKey :=
  (session.items.filter fun item => item.phase = .queued).map Item.key

end Session

abbrev InputFile (Digest : Type) := InputDocument InputOrigin Digest

structure World (Digest : Type) where
  coordinator : Coordinator
  inputs : InputFile Digest
  sessions : ThreadLookup → Session

inductive Refusal where
  | coordination (error : CoordinationError)
  | input (error : InputError)
  /-- The process is not at this point. -/
  | disabled
deriving DecidableEq

abbrev Checked := Except Refusal

variable {Digest : Type} [DecidableEq Digest]

namespace World

def empty : World Digest := ⟨.empty, .empty, fun _ => .fresh⟩

variable (world : World Digest)

def setSession (owner : ThreadLookup) (session : Session) : World Digest :=
  { world with sessions := Function.update world.sessions owner session }

def setStore (store : Store) : World Digest :=
  { world with coordinator := { world.coordinator with store } }

def onCoordinator (body : Coordinator → Except CoordinationError Coordinator) :
    Checked (World Digest) := do
  let coordinator ← (body world.coordinator).mapError .coordination
  pure { world with coordinator }

def item (owner : ThreadLookup) (key : InputKey) (phase : Phase) : Checked Item :=
  orRefuse ((world.sessions owner).item? key phase) .disabled

/-! ### `deliver_pending` -/

def readPending (owner : ThreadLookup) (afterSeq : Nat) : World Digest :=
  let session := world.sessions owner
  world.setSession owner { session with
    reads := session.reads ++ world.coordinator.pendingSealedAssignments owner afterSeq }

def lockDelivery (owner : ThreadLookup) : Checked (World Digest) :=
  match (world.sessions owner).lock with
  | .free => .ok (world.setSession owner { world.sessions owner with lock := .delivering })
  | _ => .error .disabled

/-- What a reservation is made of: the owner's name at the time and its claim, the target of
the message and the text of its turn. -/
structure Reservation where
  name : String
  rootId : String
  claimGeneration : Nat
  target : String
  text : String
deriving DecidableEq

def Reservation.fields (reservation : Reservation) (key : InputKey)
    (reference : MessageReference) : OriginalFields InputOrigin where
  key
  sequence := some reference.seq
  owner := reservation.name
  claimGeneration := reservation.claimGeneration
  target := reservation.target
  sourceText := reservation.text
  origin := .wire reservation.rootId reference

def reservedInput (fields : OriginalFields InputOrigin) :
    Except InputError (ReservedInput InputOrigin) :=
  if haccepted : fields.check = .ok () then .ok ⟨⟨fields, haccepted⟩, false, .empty⟩
  else .error (.valueError "Invalid ACP input identity")

variable (setting : Setting Digest)

/-- `reserve_originals` for one captured claim; an existing row keeps its place and the
claim is skipped. -/
def reserve (world : World Digest) (owner : ThreadLookup)
    (captured : WakeAssignment) (reservation : Reservation) : Checked (World Digest) :=
  match (world.sessions owner).lock with
  | .delivering => do
      require (captured ∈ (world.sessions owner).reads ∧
        setting.resolve reservation.name = some owner) .disabled
      let key := setting.busKey owner captured.source
      let row ← (reservedInput (reservation.fields key captured.source)).mapError .input
      let (inputs, answer) ← (InputDispositions.reserveOriginals world.inputs [row]).mapError .input
      let _ ← answer.mapError .input
      let session := world.sessions owner
      pure ({ world with inputs }.setSession owner
        { session with items := ⟨key, captured, .reserved⟩ :: session.items })
  | _ => .error .disabled

variable (clock : Clock)

/-- `transition_preengagement` as one of the steps below; a refusal writes nothing. -/
def transition (assignmentId : AssignmentId) (disposition : AssignmentKind) (revision : Nat) :
    Except CoordinationError (Store × WakeAssignment) :=
  world.coordinator.store.transitionPreengagement clock assignmentId disposition revision

variable (owner : ThreadLookup) (key : InputKey)

def pause : Checked (World Digest) := do
  let item ← world.item owner key .reserved
  match world.transition clock item.assignment.assignmentId .deferred item.assignment.revision with
  | .ok (store, paused) => pure ((world.setStore store).setSession owner
      ((world.sessions owner).move key paused .paused))
  | .error _ => pure (world.setSession owner
      ((world.sessions owner).move key item.assignment .failing))

/-- `restore_unbound_delivery`: only the claim as it was captured returns to its initial
state. -/
def restored (captured : WakeAssignment) : Store :=
  if world.coordinator.store.wakeClaims.get? captured.assignmentId = some captured then
    match world.transition clock captured.assignmentId
        captured.lifecycle.mode.initialState.kind captured.revision with
    | .ok (store, _) => store
    | .error _ => world.coordinator.store
  else world.coordinator.store

/-- The reservation fails after its pause: the claim goes back first. -/
def undoPause : Checked (World Digest) := do
  let item ← world.item owner key .paused
  pure ((world.setStore (world.restored clock item.assignment)).setSession owner
    ((world.sessions owner).move key item.assignment .failing))

def settleUnbound (world : World Digest) (keys : List InputKey) :
    Checked (InputFile Digest) := do
  let (inputs, _) ← (InputDispositions.settleUnbound world.inputs keys).mapError .input
  pure inputs

def rollback : Checked (World Digest) := do
  let _ ← world.item owner key .failing
  let inputs ← world.settleUnbound [key]
  pure ({ world with inputs }.setSession owner ((world.sessions owner).drop key))

/-- Place the first `count` of the paused items; the rest retire. The lock is free again. -/
def placeItems : Nat → List Item → List Item
  | _, [] => []
  | count, item :: rest =>
    if item.phase = .paused then
      match count with
      | 0 => { item with phase := .retiring } :: placeItems 0 rest
      | count + 1 => { item with phase := .queued } :: placeItems count rest
    else item :: placeItems count rest

/-- The reservations are over: `place` until the inbox refuses, then `_restore_unplaced`. -/
def place (count : Nat) : Checked (World Digest) :=
  match (world.sessions owner).lock with
  | .delivering => do
      require (∀ item ∈ (world.sessions owner).items,
        item.phase ≠ .reserved ∧ item.phase ≠ .failing) .disabled
      let session := world.sessions owner
      pure (world.setSession owner
        { session with lock := .free, items := placeItems count session.items })
  | _ => .error .disabled

/-! ### The native turn -/

/-- The turn writes a queued item: `bind_turn_input`. -/
def bind (world : World Digest) (owner : ThreadLookup)
    (key : InputKey) (send : NativeSend) (alreadyBound : Bool) : Checked (World Digest) := do
  let _ ← world.item owner key .queued
  let (inputs, _) ← (InputDispositions.bindTurnInput setting.digest world.inputs [key] send
    alreadyBound).mapError .input
  pure { world with inputs }

def recordStarted (world : World Digest) (owner : ThreadLookup)
    (key : InputKey) (turnId nativeId text : String) : Checked (World Digest) := do
  let _ ← world.item owner key .queued
  let (inputs, _) ← (InputDispositions.started setting.digest world.inputs key turnId nativeId
    text).mapError .input
  pure { world with inputs }

def clearNative (setting : Setting Digest) (world : World Digest) (owner : ThreadLookup)
    (key : InputKey) (nativeId text : String) : Checked (World Digest) := do
  let _ ← world.item owner key .queued
  let (inputs, _) ← (InputDispositions.clearNative setting.digest world.inputs key nativeId
    text).mapError .input
  pure { world with inputs }

def hasStarted (world : World Digest) (key : InputKey) : Bool :=
  (world.inputs.lookup key).any fun row => row.state.hasStarted

/-- `started`: a proved start settles the claim as delivered. -/
def settleStarted : Checked (World Digest) := do
  let item ← world.item owner key .queued
  require (world.hasStarted key) .disabled
  let (store, _) ← (world.transition clock item.assignment.assignmentId .delivered
    item.assignment.revision).mapError .coordination
  pure (world.setStore store)

def release : Checked (World Digest) := do
  let _ ← world.item owner key .queued
  require (world.hasStarted key) .disabled
  pure (world.setSession owner ((world.sessions owner).drop key))

def retire : Checked (World Digest) := do
  let item ← world.item owner key .queued
  pure (world.setSession owner ((world.sessions owner).move key item.assignment .retiring))

/-- The first half of `not_started`: the row is settled, and a native binding ends it. -/
def finishUnbound : Checked (World Digest) := do
  let item ← world.item owner key .retiring
  let inputs ← world.settleUnbound [key]
  let session := if (inputs.lookup key).any fun row => row.state.binding.isSome then
      (world.sessions owner).drop key
    else (world.sessions owner).move key item.assignment .retired
  pure ({ world with inputs }.setSession owner session)

def restoreItem : Checked (World Digest) := do
  let item ← world.item owner key .retired
  let store := match world.transition clock item.assignment.assignmentId
      item.assignment.lifecycle.mode.initialState.kind item.assignment.revision with
    | .ok (store, _) => store
    | .error _ => world.coordinator.store
  pure ((world.setStore store).setSession owner ((world.sessions owner).drop key))

/-! ### `recover_interrupted` -/

def recoverLock (rootId : String) : Checked (World Digest) :=
  let session := world.sessions owner
  match session.lock with
  | .free => .ok (world.setSession owner
      { session with lock := .recovering rootId session.liveKeys .started })
  | _ => .error .disabled

/-- `unbound_wire_inputs` of the owner's unresolved rows: those of reserved or not sent
inputs made from a message of this root. -/
def unboundWireInput (rootId : String) (row : StoredInput InputOrigin Digest) :
    Option (MessageReference × InputKey) :=
  match row.origin with
  | .wire root reference =>
    if setting.resolve row.owner = some owner ∧ root = rootId ∧
        (row.state = .reserved ∨ row.state = .notSent) then some (reference, row.key) else none
  | .unattributed => none

def recovery (world : World Digest) (owner : ThreadLookup) :
    Checked (String × List InputKey × Recovery) :=
  match (world.sessions owner).lock with
  | .recovering rootId liveKeys recovery => .ok (rootId, liveKeys, recovery)
  | _ => .error .disabled

def setLock (lock : QueueLock) : World Digest :=
  world.setSession owner { world.sessions owner with lock }

def recoverRows (world : World Digest) (owner : ThreadLookup) : Checked (World Digest) := do
  match ← world.recovery owner with
  | (rootId, liveKeys, .started) =>
    let rows := (world.inputs.rows.values.filterMap
      (unboundWireInput setting owner rootId)).filter fun row => row.2 ∉ liveKeys
    pure (world.setLock owner (.recovering rootId liveKeys (.read rows)))
  | _ => .error .disabled

/-- `recoverable_unbound_deliveries`: paused claims of these messages with neither an
execution nor a native source. -/
def recoverable (rows : List (MessageReference × InputKey)) : List WakeAssignment :=
  world.coordinator.store.wakeClaims.values.filter fun claim =>
    claim.recipientLookup == owner && claim.lifecycle.isDeferredUnbound &&
      !world.coordinator.hasNativeSource claim.assignmentId &&
      rows.any fun row => row.1 == claim.source

def recoverClaims : Checked (World Digest) := do
  match ← world.recovery owner with
  | (rootId, liveKeys, .read rows) => pure (world.setLock owner
      (.recovering rootId liveKeys (.selected rows (world.recoverable owner rows))))
  | _ => .error .disabled

def recoverSettle : Checked (World Digest) := do
  match ← world.recovery owner with
  | (rootId, liveKeys, .selected rows assignments) => do
      let inputs ← world.settleUnbound ((rows.filter fun row =>
        assignments.any fun claim => claim.source == row.1).map Prod.snd)
      pure ({ world with inputs }.setLock owner
        (.recovering rootId liveKeys (.settled assignments)))
  | _ => .error .disabled

/-- Restore the next selected claim; one that changed is skipped. -/
def recoverRestore : Checked (World Digest) := do
  match ← world.recovery owner with
  | (rootId, liveKeys, .settled (claim :: rest)) =>
    pure ((world.setStore (world.restored clock claim)).setLock owner
      (.recovering rootId liveKeys (.settled rest)))
  | _ => .error .disabled

/-- The recovery returns, or is refused at any of its points. -/
def recoverEnd : Checked (World Digest) := do
  let _ ← world.recovery owner
  pure (world.setLock owner .free)

end World

/-! ### Runs -/

inductive DeliveryOp where
  | coordinate (write : CoordinatorOp)
  | readPending (owner : ThreadLookup) (afterSeq : Nat)
  | lockDelivery (owner : ThreadLookup)
  | reserve (owner : ThreadLookup) (captured : WakeAssignment) (reservation : World.Reservation)
  | pause (clock : Clock) (owner : ThreadLookup) (key : InputKey)
  | undoPause (clock : Clock) (owner : ThreadLookup) (key : InputKey)
  | rollback (owner : ThreadLookup) (key : InputKey)
  | place (owner : ThreadLookup) (count : Nat)
  | bind (owner : ThreadLookup) (key : InputKey) (send : NativeSend) (alreadyBound : Bool)
  | recordStarted (owner : ThreadLookup) (key : InputKey) (turnId nativeId text : String)
  | clearNative (owner : ThreadLookup) (key : InputKey) (nativeId text : String)
  | settleStarted (clock : Clock) (owner : ThreadLookup) (key : InputKey)
  | release (owner : ThreadLookup) (key : InputKey)
  | retire (owner : ThreadLookup) (key : InputKey)
  | finishUnbound (owner : ThreadLookup) (key : InputKey)
  | restoreItem (clock : Clock) (owner : ThreadLookup) (key : InputKey)
  | recoverLock (owner : ThreadLookup) (rootId : String)
  | recoverRows (owner : ThreadLookup)
  | recoverClaims (owner : ThreadLookup)
  | recoverSettle (owner : ThreadLookup)
  | recoverRestore (clock : Clock) (owner : ThreadLookup)
  | recoverEnd (owner : ThreadLookup)
  | crash (owner : ThreadLookup)

namespace World

def step (setting : Setting Digest) (op : DeliveryOp) (world : World Digest) :
    Checked (World Digest) :=
  match op with
  | .coordinate write => world.onCoordinator (Coordinator.perform write)
  | .readPending owner afterSeq => .ok (world.readPending owner afterSeq)
  | .lockDelivery owner => world.lockDelivery owner
  | .reserve owner captured reservation => world.reserve setting owner captured reservation
  | .pause clock owner key => world.pause clock owner key
  | .undoPause clock owner key => world.undoPause clock owner key
  | .rollback owner key => world.rollback owner key
  | .place owner count => world.place owner count
  | .bind owner key send alreadyBound => world.bind setting owner key send alreadyBound
  | .recordStarted owner key turnId nativeId text =>
    world.recordStarted setting owner key turnId nativeId text
  | .clearNative owner key nativeId text => world.clearNative setting owner key nativeId text
  | .settleStarted clock owner key => world.settleStarted clock owner key
  | .release owner key => world.release owner key
  | .retire owner key => world.retire owner key
  | .finishUnbound owner key => world.finishUnbound owner key
  | .restoreItem clock owner key => world.restoreItem clock owner key
  | .recoverLock owner rootId => world.recoverLock owner rootId
  | .recoverRows owner => world.recoverRows setting owner
  | .recoverClaims owner => world.recoverClaims owner
  | .recoverSettle owner => world.recoverSettle owner
  | .recoverRestore clock owner => world.recoverRestore clock owner
  | .recoverEnd owner => world.recoverEnd owner
  | .crash owner => .ok (world.setSession owner .fresh)

def reached (setting : Setting Digest) (ops : List DeliveryOp) : World Digest :=
  run (step setting) ops empty

end World

end AgentComms.Deliveries
