import AgentComms.Library.Dict

/-!
# Thread declarations and presence statuses

The rows the registry stores: a thread declaration with the checks its
constructor makes (`registry/threads.py`), its creation time
(`thread_creation.py`), its turn reference (`turn_lease.py`) and the presence
statuses with the decisions each one owns (`thread_status.py`).

A `Thread` is a record of fields together with the proof that the constructor
accepted them, so `dataclasses.replace` is `Thread.make` on changed fields and may
refuse. The process table, the clock and the turn files are read through an
`Environment`, which differs from one operation to the next.
-/

namespace AgentComms.Registry

open Library

abbrev Name := String

/-- Microseconds since the epoch. -/
abbrev Time := Int

inductive RegistryError where
  | relationViolation (text : String)
  | unregisteredThread (text : String)
  | valueError (text : String)
  | malformedRecord (text : String)
  | keyError (key : String)
  | ownerBusy
  | ownerChangedBeforeFence
  | ownerGenerationChanged
deriving DecidableEq, Repr

abbrev Checked := Except RegistryError

/-- Python's `!r` of a name. -/
def quoted (name : Name) : String := "'" ++ name ++ "'"

/-! ### Creation times -/

/-- The bit pattern of the double `math.inf`. -/
def infinityBits : Nat := 0x7FF0000000000000

/-- A creation time. Positive doubles are ordered as their bit patterns and
`math.nextafter(x, math.inf)` is the successor pattern, so a birth is the
pattern itself. -/
inductive CreationTime where
  | recorded (birth : Nat)
  | generated (birth : Nat)
deriving DecidableEq, Repr

def CreationTime.birth : CreationTime → Nat
  | .recorded birth => birth
  | .generated birth => birth

/-- `while candidate in used: candidate = math.nextafter(candidate, math.inf)`,
for at most `fuel` rounds. -/
def nextFree (used : List Nat) : Nat → Nat → Nat
  | 0, candidate => candidate
  | fuel + 1, candidate =>
    if candidate ∈ used then nextFree used fuel (candidate + 1) else candidate

/-- A recorded birth may not be used already, a generated one moves to the next unused double. -/
def CreationTime.distinctFrom (used : List Nat) : CreationTime → Checked CreationTime
  | .recorded birth =>
    if birth ∈ used then
      .error (.relationViolation "Registry creation identities collide.")
    else .ok (.recorded birth)
  | .generated birth =>
    -- every round leaves one used birth behind, so the loop ends within the list's length
    let candidate := nextFree used used.length birth
    if candidate < infinityBits then .ok (.recorded candidate)
    else .error (.relationViolation "Registry creation identities collide.")

/-- If the search stops on a used birth, every candidate it passed was used. -/
theorem mem_used_of_nextFree (used : List Nat) (fuel candidate : Nat)
    (hmem : nextFree used fuel candidate ∈ used) : ∀ i, i ≤ fuel → candidate + i ∈ used := by
  induction fuel generalizing candidate with
  | zero =>
    intro i hi
    have hzero : i = 0 := by omega
    simpa [nextFree, hzero] using hmem
  | succ fuel ih =>
    rw [nextFree] at hmem
    by_cases hused : candidate ∈ used
    · rw [if_pos hused] at hmem
      intro i hi
      cases i with
      | zero => exact hused
      | succ i =>
        have hnext := ih (candidate + 1) hmem i (by omega)
        have harith : candidate + 1 + i = candidate + (i + 1) := by omega
        exact harith ▸ hnext
    · rw [if_neg hused] at hmem
      exact absurd hmem hused

/-- The search finds an unused birth: the `used.length + 1` candidates it can
reach are distinct, so they are not all used. -/
theorem nextFree_not_mem (used : List Nat) (candidate : Nat) :
    nextFree used used.length candidate ∉ used := by
  intro hmem
  have hall := mem_used_of_nextFree used used.length candidate hmem
  have hsubset : List.range' candidate (used.length + 1) ⊆ used := by
    intro birth hbirth
    rw [List.mem_range'_1] at hbirth
    have hcandidate := hall (birth - candidate) (by omega)
    have harith : candidate + (birth - candidate) = birth := by omega
    exact harith ▸ hcandidate
  have hnodup : (List.range' candidate (used.length + 1)).Nodup := List.nodup_range'
  have hlength := (List.subperm_of_subset hnodup hsubset).length_le
  rw [List.length_range'] at hlength
  omega

theorem CreationTime.distinctFrom_not_mem {used : List Nat} {time distinct : CreationTime}
    (hok : time.distinctFrom used = .ok distinct) : distinct.birth ∉ used := by
  cases time with
  | recorded =>
    simp only [CreationTime.distinctFrom] at hok
    split at hok
    · cases hok
    · rename_i hfree
      cases hok
      exact hfree
  | generated birth =>
    simp only [CreationTime.distinctFrom] at hok
    split at hok
    · cases hok
      exact nextFree_not_mem used birth
    · cases hok

/-! ### Processes, roles and turn references -/

/-- An exact recorded process or a worker which has never started. -/
inductive ProcessState where
  | noProcess
  | process (pid startTime : Nat)
deriving DecidableEq, Repr

/-- An omitted process keeps the previous one. -/
def ProcessState.applied (incoming previous : ProcessState) : ProcessState :=
  match incoming with
  | .noProcess => previous
  | .process _ _ => incoming

def ProcessState.conflictsWith (incoming previous : ProcessState) : Bool :=
  match incoming with
  | .noProcess => false
  | .process _ _ => incoming ≠ previous

inductive ThreadRole where
  | agent | service | acp | user
deriving DecidableEq, Repr

def ThreadRole.executable : ThreadRole → Bool
  | .agent | .acp => true
  | .service | .user => false

/-- `ThreadRole.choose`: only a service publisher replaces an earlier role, and
never a human one. -/
def ThreadRole.registeredOver (incoming previous : ThreadRole) : Checked ThreadRole :=
  match incoming with
  | .service => do
      require (previous ≠ .user)
        (.relationViolation "A service publisher cannot replace a human participant.")
      pure .service
  | _ => .ok previous

/-- How a thread executes; the class of its declaration. -/
inductive Execution where
  | native | external | service | subagent | fork
deriving DecidableEq, Repr

/-- A turn reference: none, the last finished turn, or the file of one turn
generation of one birth. -/
inductive TurnRecord where
  | noTurnRecord
  | finishedTurn (turnId : String)
  | stored (birth generation : Nat)
deriving DecidableEq, Repr

/-- What stays once the live reference is dropped. -/
def TurnRecord.released : TurnRecord → TurnRecord
  | .stored _ _ => .noTurnRecord
  | record => record

def TurnRecord.executing : TurnRecord → Bool
  | .stored _ _ => true
  | _ => false

def TurnRecord.requireGeneration (generation : Nat) : TurnRecord → Checked Unit
  | .finishedTurn _ =>
    require (generation ≠ 0) (.valueError "Finished turn requires a prior turn generation.")
  | _ => .ok ()

/-- A turn file's contents. A generation that was never recorded, or whose
claim was released, is `none`. -/
structure ActiveTurn where
  id : String
  startedAt : Time
  claimedGeneration : Option Nat
  turnGeneration : Option Nat
  keepsProjectResume : Bool
deriving DecidableEq, Repr

inductive OfferedTools where
  | unobserved
  | unreported (version : String)
  | reported (version : String) (tools : Finset String)
deriving DecidableEq

/-- Nothing observed keeps the last real record. -/
def OfferedTools.restartedOver (offered before : OfferedTools) : OfferedTools :=
  match offered with
  | .unobserved => before
  | _ => offered

/-! ### Thread declarations -/

structure ThreadFields where
  name : Name
  tags : Finset String
  createdAt : CreationTime
  execution : Execution
  parent : Option Name
  processIdentity : ProcessState
  role : ThreadRole
  turnRecord : TurnRecord
  channelScopeGeneration : Nat
  turnGeneration : Nat
  projectResumeDue : Bool
  offered : OfferedTools
  offeredBeforeRestart : OfferedTools
deriving DecidableEq

def nameCharacter (c : Char) : Bool := c.isAlphanum || c = '-' || c = '_'

def tagCharacter (c : Char) : Bool := c.isLower || c.isDigit || c = '-' || c = '_'

def builtinChannels : List String := ["any", "none", "all"]

def validTag (tag : String) : Bool :=
  tag ≠ "" && tag.toList.all tagCharacter && tag ∉ builtinChannels

def ThreadFields.check (fields : ThreadFields) : Checked Unit := do
  require (fields.name ≠ "" ∧ fields.name.toList.all nameCharacter)
    (.valueError ("Thread name " ++ quoted fields.name ++
      " must be alphanumeric with hyphens/underscores."))
  require (∀ tag ∈ fields.tags, validTag tag)
    (.valueError ("Tags must be lowercase alphanumeric with hyphens/underscores; " ++
      "built-in channel names are reserved."))
  require (0 < fields.createdAt.birth ∧ fields.createdAt.birth < infinityBits)
    (.valueError "Thread incarnation requires a positive recorded birth")
  require (fields.processIdentity = .noProcess ∨ fields.role.executable)
    (.relationViolation "A human thread cannot hold an owner process")
  require (fields.channelScopeGeneration < 2 ^ 63)
    (.valueError "Channel scope generation must be a nonnegative 63-bit integer.")
  require (fields.turnGeneration < 2 ^ 63)
    (.valueError "Turn generation must be an exact nonnegative 63-bit integer.")
  fields.turnRecord.requireGeneration fields.turnGeneration
  require (fields.parent ≠ some fields.name)
    (.relationViolation ("Thread " ++ quoted fields.name ++ " cannot be its own parent."))

instance : DecidableEq (Checked Unit) := fun x y =>
  match x, y with
  | .ok (), .ok () => isTrue rfl
  | .error e, .error e' => decidable_of_iff (e = e') (by simp)
  | .ok (), .error _ => isFalse (by simp)
  | .error _, .ok () => isFalse (by simp)

structure Thread extends ThreadFields where
  accepted : toThreadFields.check = .ok ()
deriving DecidableEq

/-- `dataclasses.replace`: construct a declaration, checking its fields. -/
def Thread.make (fields : ThreadFields) : Checked Thread :=
  match hcheck : fields.check with
  | .ok () => .ok ⟨fields, hcheck⟩
  | .error e => .error e

@[simp] theorem Thread.make_eq_ok {fields : ThreadFields} {thread : Thread} :
    Thread.make fields = .ok thread ↔ thread.toThreadFields = fields := by
  unfold Thread.make
  constructor
  · intro hok
    split at hok
    · cases hok
      rfl
    · cases hok
  · rintro rfl
    split
    · rfl
    · rename_i e herror
      rw [thread.accepted] at herror
      cases herror

namespace Thread

/-- The birth that a thread's incarnation and creation lookup are made of. -/
def birth (thread : Thread) : Nat := thread.createdAt.birth

def executing (thread : Thread) : Bool := thread.turnRecord.executing

variable (thread : Thread)

def turnColumns : Nat × Nat × TurnRecord :=
  (thread.birth, thread.turnGeneration, thread.turnRecord)

def withoutTurn : Checked Thread :=
  make { thread.toThreadFields with turnRecord := thread.turnRecord.released }

/-- This record in another root: its turn and process stay where it came from. -/
def withoutProcess : Checked Thread := do
  let idle ← thread.withoutTurn
  make { idle.toThreadFields with processIdentity := .noProcess }

/-- Unregistered: only an external endpoint keeps its process binding. -/
def withdrawn : Checked Thread :=
  match thread.execution with
  | .native | .service => make { thread.toThreadFields with processIdentity := .noProcess }
  | .external | .subagent | .fork => .ok thread

/-- A new owner incarnation starts unobserved over the last real record. -/
def restartedTools : Checked Thread :=
  make { thread.toThreadFields with
    offered := .unobserved
    offeredBeforeRestart := thread.offered.restartedOver thread.offeredBeforeRestart }

/-- Metadata writers cannot forge channel scope or reset a finished turn. -/
def preserveRegistrationHistory (thread previous : Thread) : Checked Thread := do
  require (thread.tags = previous.tags ∨ previous.channelScopeGeneration < 2 ^ 63 - 1)
    (.relationViolation "Channel scope generation exhausted")
  let scope := if thread.tags = previous.tags then previous.channelScopeGeneration
    else previous.channelScopeGeneration + 1
  let result ← make { thread.toThreadFields with
    createdAt := previous.createdAt
    channelScopeGeneration := scope
    offered := previous.offered
    offeredBeforeRestart := previous.offeredBeforeRestart }
  if thread.turnGeneration = previous.turnGeneration then pure result
  else make { result.toThreadFields with
    turnGeneration := previous.turnGeneration
    turnRecord := previous.turnRecord }

/-- Resolve omitted metadata from the previous declaration, each field by its
registration policy, under the canonical name. -/
def forRegistration (canonical : Name) : Option Thread → Checked Thread
  | none => make { thread.toThreadFields with name := canonical }
  | some previous => do
      let role ← thread.role.registeredOver previous.role
      make { thread.toThreadFields with
        name := canonical
        tags := if thread.tags = ∅ then previous.tags else thread.tags
        processIdentity := thread.processIdentity.applied previous.processIdentity
        projectResumeDue := previous.projectResumeDue
        role := role }

end Thread

/-! ### Presence statuses -/

structure Environment where
  now : Time
  /-- The process that runs the operation. -/
  currentProcess : ProcessState
  processAlive : Nat → Nat → Bool
  /-- `TurnRecord.read` of a stored record: this turn while its thread names it,
      else the thread's current turn, if any. -/
  readTurn : Nat → Nat → Checked (Option ActiveTurn)
  /-- When a thread's transcript was last written. -/
  lastWritten : Name → Time

def Environment.alive (env : Environment) : ProcessState → Bool
  | .noProcess => false
  | .process pid startTime => env.processAlive pid startTime

def Environment.read (env : Environment) : TurnRecord → Checked (Option ActiveTurn)
  | .stored birth generation => env.readTurn birth generation
  | _ => .ok none

inductive ThreadStatus where
  | process | running | heartbeat | idle
  | stopped | stopping
  | connected | pausedBridge | noBridge
  | service | archived | deleting
deriving DecidableEq, Repr

namespace ThreadStatus

def active : ThreadStatus → Bool
  | process | running | heartbeat | idle | connected => true
  | _ => false

def heartbeatMaxAge : Time := 120 * 1000000

/-- The stored status as the process table and the last heartbeat show it. -/
def registered (env : Environment) (thread : Thread) (lastSeen : Time) :
    ThreadStatus → ThreadStatus
  | process => seen running
  | running => seen running
  | heartbeat => seen heartbeat
  | idle => seen idle
  | stopped => fencedBy stopped
  | stopping => fencedBy stopping
  | connected => bridge
  | pausedBridge => if env.alive thread.processIdentity then pausedBridge else noBridge
  | noBridge => bridge
  | service => service
  | archived => archived
  | deleting => deleting
where
  /-- `ProcessState.thread_status`: a processless presence expires with its
      heartbeat, a bound one stops with its process. -/
  seen (presence : ThreadStatus) : ThreadStatus :=
    match thread.processIdentity with
    | .noProcess => if env.now - lastSeen ≤ heartbeatMaxAge then heartbeat else stopped
    | bound => if env.alive bound then presence else stopped
  /-- `ProcessState.stopped_seen`: a stored stop still bound is a fence. -/
  fencedBy (status : ThreadStatus) : ThreadStatus :=
    match thread.processIdentity with
    | .noProcess => status
    | .process _ _ => stopping
  /-- A CLI inbox resolves its bridge process at every read. -/
  bridge : ThreadStatus :=
    if env.alive thread.processIdentity then connected else noBridge

def declaration : ThreadStatus → ThreadStatus
  | running | heartbeat => process
  | stopping => stopped
  | status => status

def externalRegistered (env : Environment) (thread : Thread) (now : Time) :
    ThreadStatus → ThreadStatus
  | connected => connected.registered env thread now
  | pausedBridge => pausedBridge.registered env thread now
  | service => service
  | _ => noBridge.registered env thread now

def requireSelfRename : ThreadStatus → Checked Unit
  | running | heartbeat | connected | pausedBridge | noBridge => .ok ()
  | _ => .error (.relationViolation "Only a running thread can rename itself.")

def requireMutable (name : Name) : ThreadStatus → Checked Unit
  | deleting =>
    .error (.relationViolation ("Thread " ++ quoted name ++ " is being permanently deleted."))
  | _ => .ok ()

def requireActive (status : ThreadStatus) : Checked Unit :=
  require status.active (.relationViolation "live owner is stopped or unavailable")

def requireDeleting : ThreadStatus → Checked Unit
  | deleting => .ok ()
  | _ => .error (.relationViolation "Thread has not entered permanent deletion.")

/-- An owner starts or ends between the two statuses. -/
def changesOwner (status next : ThreadStatus) : Bool := status.active != next.active

def forDeletion (status : ThreadStatus) : Checked ThreadStatus := do
  require (status.active = false)
    (.relationViolation "Stop a running thread before permanently deleting it.")
  pure deleting

def afterHeartbeat (name : Name) (status : ThreadStatus) : Checked ThreadStatus :=
  match status with
  | connected | pausedBridge | noBridge | service => .ok status
  | _ => do
      status.requireMutable name
      pure process

/-- Restoring saved provenance never restarts its original process. -/
def restored : ThreadStatus → ThreadStatus
  | connected | pausedBridge | noBridge => noBridge
  | service => service
  | archived => archived
  | _ => stopped

end ThreadStatus

/-- The lifecycle a registration installs, by the execution it declares. -/
def Thread.registeredStatus (env : Environment) (thread : Thread) (requested : ThreadStatus) :
    ThreadStatus :=
  match thread.execution with
  | .external => requested.externalRegistered env thread env.now
  | .service => .service
  | .native | .subagent | .fork => requested

end AgentComms.Registry
