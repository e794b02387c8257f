import AgentComms.Goals.States
import AgentComms.Inputs.Dispositions
import AgentComms.Waits.Deliveries

/-!
# Dependency waits and their reviews

A standby names the threads a goal waits for (`planning/goal_waits.py`,
`goal_records.py`, `PreparedStandbyGoalAction`). It is prepared outside the registry lock:
the owner is captured, unresolved inputs are listed, replies are read from one bus
snapshot, and the stored inputs of those replies are read after it. The wait is recorded
later, under the registry's write lock, if the capture is still current. A wait is
released as unanswered in a loop: silence is read without the lock and rechecked under it.

What other actors do between two reads of a call is a list of events. A publication holds
the registry's read lock, and so does the consumption of a wait by its reply, so neither
falls inside an edit; the input store is not under that lock.

The registry is the part these calls read. `binding` stands for what `same_thread`
compares (launch, turn references, authority and status). Whether a thread is working,
will answer, or closes a wait group is read from other stores and comes as a verdict.
-/

namespace AgentComms.Waits

open Library
open Inputs
open Goals (Goal GoalState GoalError)

variable {Origin Digest : Type} [DecidableEq Origin] [DecidableEq Digest]

inductive WaitError where
  | valueError (text : String)
  | relationViolation (text : String)
  | unregistered (text : String)
  | input (error : InputError)
  | goal (error : GoalError)
deriving DecidableEq, Repr

/-! ### The registry -/

/-- A recorded incarnation: its birth is its identity, its name a route. -/
structure Incarnation where
  name : String
  birth : Nat
deriving DecidableEq, Repr

structure ThreadRow where
  name : String
  birth : Nat
  goal : Option Goal
  turn : Option (String × Nat)
  claimGeneration : Nat
  binding : Nat
deriving DecidableEq

def ThreadRow.incarnation (thread : ThreadRow) : Incarnation := ⟨thread.name, thread.birth⟩

/-- Threads under their names, each birth once; no thread's name is an alias. -/
structure RegistryCut where
  threads : Dict String ThreadRow
  aliases : Dict String String
  keyed : ∀ entry ∈ threads.entries, entry.2.name = entry.1
  unique : ∀ entry ∈ threads.entries, ∀ other ∈ threads.entries,
    entry.2.birth = other.2.birth → entry.1 = other.1
  unaliased : ∀ entry ∈ threads.entries, entry.1 ∉ aliases

namespace RegistryCut

variable (registry : RegistryCut)

def canonicalName (name : String) : String := (registry.aliases.get? name).getD name

def requireThread (name : String) : Except WaitError ThreadRow :=
  orRefuse (registry.threads.get? (registry.canonicalName name))
    (.unregistered ("Thread '" ++ registry.canonicalName name ++ "' is not registered."))

def threadsFor (incarnation : Incarnation) : Option ThreadRow :=
  (registry.threads.get? (registry.canonicalName incarnation.name)).filter
    fun thread => thread.birth = incarnation.birth

/-- A row written in place of a registered one has its birth. -/
theorem replaced {registry : RegistryCut} {owner : ThreadRow} {goal : Option Goal}
    (hget : registry.threads.get? owner.name = some owner) {name : String} {thread : ThreadRow}
    (hwritten : (registry.threads.set owner.name { owner with goal := goal }).get? name =
      some thread) :
    ∃ old, (name, old) ∈ registry.threads.entries ∧ old.birth = thread.birth := by
  rcases Dict.get?_set_eq_some.mp hwritten with ⟨hname, rfl⟩ | ⟨-, hwritten⟩
  · exact ⟨owner, Dict.mem_entries.mpr (hname ▸ hget), rfl⟩
  · exact ⟨thread, Dict.mem_entries.mpr hwritten, rfl⟩

def withGoal (owner : ThreadRow) (goal : Goal)
    (hget : registry.threads.get? owner.name = some owner) : RegistryCut where
  threads := registry.threads.set owner.name { owner with goal := some goal }
  aliases := registry.aliases
  keyed := by
    rintro ⟨name, thread⟩ hentry
    rcases Dict.get?_set_eq_some.mp (Dict.mem_entries.mp hentry) with ⟨hname, rfl⟩ | ⟨-, hentry⟩
    · exact hname.symm
    · exact registry.keyed _ (Dict.mem_entries.mpr hentry)
  unique := by
    rintro ⟨name, thread⟩ hentry ⟨other, another⟩ hother hbirth
    obtain ⟨old, hold, holdBirth⟩ := replaced hget (Dict.mem_entries.mp hentry)
    obtain ⟨old', hold', holdBirth'⟩ := replaced hget (Dict.mem_entries.mp hother)
    exact registry.unique (name, old) hold (other, old') hold'
      (holdBirth.trans (hbirth.trans holdBirth'.symm))
  unaliased := by
    rintro ⟨name, thread⟩ hentry
    obtain ⟨old, hold, -⟩ := replaced hget (Dict.mem_entries.mp hentry)
    exact registry.unaliased (name, old) hold

/-- Current and retained names of a thread. -/
def namesFor (name : String) : List String :=
  registry.canonicalName name ::
    (registry.aliases.entries.filter fun entry => entry.2 = registry.canonicalName name).map Prod.fst

end RegistryCut

def activeGoal (goal : Option Goal) : Option Goal := goal.filter fun goal => goal.state = .active

/-! ### Waits -/

structure RecordedGoalWait where
  goalId : String
  waitId : String
  revision : Nat
  afterSeq : Nat
  targets : List Nat
  owner : Nat
  targetTurnGenerations : List (Option Nat)
  reportTurn : Option (String × Nat)
deriving DecidableEq, Repr

namespace RecordedGoalWait

variable (wait : RecordedGoalWait)

def check : Except WaitError Unit := do
  require (wait.targetTurnGenerations.length = wait.targets.length ∧
      ∀ generation ∈ wait.targetTurnGenerations, generation ≠ some 0)
    (.valueError "A wait requires its owner incarnation and aligned target turns.")
  require (∀ turn ∈ wait.reportTurn, 0 < turn.2)
    (.valueError "A reporting turn requires both its ID and generation.")

/-- A wait survives edits of its goal, not a new owner. -/
def currentFor (goal : Goal) (owner : Nat) : Bool :=
  wait.owner = owner && goal.id = wait.goalId && wait.revision ≤ goal.revision

def «matches» (original : Delivered) (owner : Nat) : Bool :=
  wait.owner = owner && wait.afterSeq < original.seq && original.directFor owner &&
    original.senderLookup ∈ wait.targets

/-- The first indexed row is enough. -/
def hasReply (log : BusLog) (owner : Nat) : Bool :=
  wait.owner = owner &&
    (log.directReplies owner wait.afterSeq 1 wait.targets).any fun original =>
      wait.matches original owner

end RecordedGoalWait

/-- The cursor of the wait on the same targets, or the goal's own. -/
def reviewAfterSeq (wait : Option RecordedGoalWait) (goal : Goal) (owner : Nat)
    (targets : List Nat) : Nat :=
  match wait with
  | some wait =>
    if wait.owner = owner ∧ (∀ target ∈ targets, target ∈ wait.targets) ∧
        ∀ target ∈ wait.targets, target ∈ targets then wait.afterSeq
    else goal.publishedSeq
  | none => goal.publishedSeq

structure GoalWaits where
  rows : Dict String RecordedGoalWait
  keyed : ∀ goalId wait, rows.get? goalId = some wait → wait.goalId = goalId

namespace GoalWaits

def empty : GoalWaits := ⟨.empty, fun _ _ hget => by cases hget⟩

variable (waits : GoalWaits)

def record (wait : RecordedGoalWait) : GoalWaits where
  rows := waits.rows.set wait.goalId wait
  keyed := by
    intro goalId other hget
    rcases Dict.get?_set_eq_some.mp hget with ⟨hgoal, rfl⟩ | ⟨-, hget⟩
    · exact hgoal.symm
    · exact waits.keyed goalId other hget

def keep (stays : String → RecordedGoalWait → Bool) : GoalWaits where
  rows := waits.rows.filter stays
  keyed := by
    intro goalId wait hget
    rw [Dict.get?_filter, Option.filter_eq_some_iff] at hget
    exact waits.keyed goalId wait hget.1

def clear (goalId : String) : GoalWaits := waits.keep fun other _ => other ≠ goalId

def consume (goalId waitId : String) : GoalWaits :=
  waits.keep fun other wait => !(other = goalId && wait.waitId = waitId)

def removeThreads (owners : List Nat) : GoalWaits := waits.keep fun _ wait => wait.owner ∉ owners

def resolve (goal : Option Goal) : Option RecordedGoalWait :=
  (activeGoal goal).bind fun goal => waits.rows.get? goal.id

end GoalWaits

/-! ### The world and what others do to it -/

structure World (Origin Digest : Type) where
  bus : BusLog
  registry : RegistryCut
  waits : GoalWaits
  inputs : InputDocument Origin Digest

inductive WorldEvent (Origin Digest : Type) where
  | publish (publication : Publication)
  | appendOther
  /-- Any edit of the registry: registrations, renames, goals, turns. -/
  | edit (registry : RegistryCut)
  | input (op : InputOp Origin Digest)
  | recordWait (wait : RecordedGoalWait)
  | clearWait (goalId : String)
  | consumeWait (goalId waitId : String)
  | removeThreads (owners : List Nat)

namespace World

variable (digest : String → Digest) (world : World Origin Digest)

def step : WorldEvent Origin Digest → World Origin Digest
  | .publish publication => { world with bus := world.bus.append publication }
  | .appendOther => { world with bus := world.bus.appendOther }
  | .edit registry => { world with registry := registry }
  | .input op => { world with inputs := commit (op.step digest) world.inputs }
  | .recordWait wait => { world with waits := world.waits.record wait }
  | .clearWait goalId => { world with waits := world.waits.clear goalId }
  | .consumeWait goalId waitId => { world with waits := world.waits.consume goalId waitId }
  | .removeThreads owners => { world with waits := world.waits.removeThreads owners }

def after (events : List (WorldEvent Origin Digest)) : World Origin Digest :=
  events.foldl (World.step digest) world

end World

/-! ### Reviews -/

/-- The registry, turn and wait observed before reading reply history. -/
structure GoalWaitReview where
  registry : RegistryCut
  owner : ThreadRow
  wait : Option RecordedGoalWait
  turn : Option (String × Nat)

namespace GoalWaitReview

def capture (world : World Origin Digest) (incarnation : Incarnation) :
    Except WaitError GoalWaitReview := do
  let owner ← orRefuse (world.registry.threadsFor incarnation)
    (.unregistered "The reviewed thread incarnation was removed.")
  pure ⟨world.registry, owner, world.waits.resolve owner.goal, owner.turn⟩

variable (review : GoalWaitReview)

def owners : List String := review.registry.namesFor review.owner.name

/-- A retained wait follows edits of its active goal. -/
def currentGoal (owner : ThreadRow) : Bool :=
  (activeGoal owner.goal).any fun goal => review.wait.any fun wait => wait.currentFor goal owner.birth

/-- What both reviews recheck under the lock, given their check of the goal. -/
def stands (world : World Origin Digest) (currentGoal : ThreadRow → Bool) : Bool :=
  (world.registry.threadsFor review.owner.incarnation).any fun owner =>
    currentGoal owner && owner.turn = review.turn &&
      world.waits.resolve owner.goal = review.wait && owner.binding = review.owner.binding

def currentFor (world : World Origin Digest) : Bool := review.stands world review.currentGoal

end GoalWaitReview

/-- Reply eligibility and the bus cut inspected before publication. -/
structure GoalInputReview (Origin Digest : Type) extends GoalWaitReview where
  throughSeq : Nat
  targets : List Incarnation
  unknown : List (StoredInput Origin Digest)
  eligible : List InputKey

/-- `GoalInputReview.current_for`: the exact prepared goal, and the same targets. -/
def GoalInputReview.currentForInput (review : GoalInputReview Origin Digest)
    (world : World Origin Digest) : Bool :=
  review.stands world (fun owner => owner.goal = review.owner.goal) &&
    review.targets.all fun target =>
      (world.registry.threadsFor target).any fun actual =>
        (review.registry.threads.get? (review.registry.canonicalName target.name)).any
          fun expected => actual.binding = expected.binding

def busKey (delivery : Delivered) (owner : ThreadRow) : InputKey :=
  match delivery.responsePolicy with
  | .direct => .bus delivery.seq
  | _ => .ownedBus delivery.seq owner.birth

/-- The reservation a review gives a reply that has no stored input. -/
def reservation (unattributed : Origin) (owner : ThreadRow) (delivery : Delivered) :
    Except WaitError (ReservedInput Origin) :=
  let fields : OriginalFields Origin :=
    ⟨busKey delivery owner, some delivery.seq, owner.name, owner.claimGeneration,
      delivery.target.name, delivery.body, unattributed⟩
  match haccepted : fields.check with
  | .ok () => .ok ⟨⟨fields, haccepted⟩, false, .empty⟩
  | .error error => .error (.input error)

/-- `removeprefix("@")`. -/
def bareName (text : String) : String :=
  match text.toList with
  | '@' :: rest => String.ofList rest
  | _ => text

/-- `dict.fromkeys` over incarnations. -/
def distinctTargets (targets : List Incarnation) : List Incarnation :=
  targets.foldl (fun kept target =>
    if target.birth ∈ kept.map Incarnation.birth then kept else kept ++ [target]) []

def requireActive (goal : Option Goal) (goalId : String) : Except WaitError Goal := do
  let goal ← orRefuse goal (.relationViolation "No goal is set for this thread.")
  require (goal.id = goalId)
    (.relationViolation "This goal was replaced or cleared; refresh its state.")
  require (goal.state = .active) (.relationViolation goal.state.activityRefusal)
  pure goal

/-- A standby call: what it asks for, and what others do between its steps. -/
structure Standby (Origin Digest : Type) where
  incarnation : Incarnation
  /-- The thread name the action was addressed to. -/
  name : String
  goalId : String
  waitFor : List String
  reviewedInputs : List InputKey
  /-- The coordinator's unconfirmed attempts for the owner. -/
  attempted : List (ReservedInput Origin)
  progress : Option String
  /-- The reporting turn, and whether the model reports it. -/
  reportedTurn : Option String
  modelReport : Bool
  waitId : String
  answersLater : Bool
  closedGroup : List String
  beforeUnresolved : List (WorldEvent Origin Digest)
  beforeBus : List (WorldEvent Origin Digest)
  beforeInputs : List (WorldEvent Origin Digest)
  beforeEdit : List (WorldEvent Origin Digest)
  /-- Input operations inside the edit, before the review and before the wait is recorded. -/
  beforeReview : List (InputOp Origin Digest)
  beforeRecord : List (InputOp Origin Digest)

namespace Standby

variable (digest : String → Digest) (unattributed : Origin) (call : Standby Origin Digest)
  (start : World Origin Digest)

/-- The worlds a call reads: at its list of unresolved inputs, its bus snapshot, its read of
the stored inputs, and its edit. -/
def atUnresolved : World Origin Digest := start.after digest call.beforeUnresolved
def atBus : World Origin Digest := (call.atUnresolved digest start).after digest call.beforeBus
def atInputs : World Origin Digest := (call.atBus digest start).after digest call.beforeInputs
def atEdit : World Origin Digest := (call.atInputs digest start).after digest call.beforeEdit

def resolveTargets (captured : GoalWaitReview) : Except WaitError (List Incarnation) := do
  require (call.waitFor ≠ []) (.valueError "Standby requires explicit wait_for thread names.")
  let resolved ← call.waitFor.mapM fun target => captured.registry.requireThread (bareName target)
  require (∀ target ∈ resolved, target.birth ≠ captured.owner.birth)
    (.valueError "A goal cannot wait for its own thread.")
  pure (distinctTargets (resolved.map ThreadRow.incarnation))

/-- The sequences of older unresolved inputs (`bus_sequences_through`). -/
def olderSequences (unknown : InputRows Origin Digest) (afterSeq : Nat) : List Nat :=
  (unknown.values.filterMap fun row => row.sequence.bind fun sequence =>
    if sequence ≤ afterSeq then some sequence.toNat else none).dedup

/-- The replies of one bus snapshot: older unresolved ones, and all after the cursor. -/
def replies (log : BusLog) (owner afterSeq : Nat) (older senders : List Nat) : List Delivered :=
  (if older = [] then [] else log.directRepliesAt owner older senders) ++
    log.repliesAfter owner afterSeq senders

def review : Except WaitError (GoalInputReview Origin Digest) := do
  let captured ← GoalWaitReview.capture start call.incarnation
  let goal ← requireActive captured.owner.goal call.goalId
  let targets ← call.resolveTargets captured
  let listed ← (InputDispositions.unresolved (call.atUnresolved digest start).inputs
    captured.owners call.attempted).mapError .input
  let unknown := (listed.unknown captured.owners).foldl
    (fun rows row => rows.set row.key row) (Dict.empty : InputRows Origin Digest)
  let senders := targets.map Incarnation.birth
  let afterSeq := reviewAfterSeq captured.wait goal captured.owner.birth senders
  let log := (call.atBus digest start).bus
  let found := replies log captured.owner.birth afterSeq (olderSequences unknown afterSeq) senders
  let reserved ← found.mapM (reservation unattributed captured.owner)
  let stored := (call.atInputs digest start).inputs.select
    (InputDispositions.keyIn (found.map fun delivery => busKey delivery captured.owner))
  let document ← (stored.record reserved).mapError .input
  let pending := document.unknown captured.owners
  pure {
    toGoalWaitReview := captured
    throughSeq := log.lastSeq
    targets := targets
    unknown := (pending.foldl (fun rows row => rows.set row.key row) unknown).values.mergeSort
      InputDocument.before
    eligible := pending.map fun row => row.key }

variable (review : GoalInputReview Origin Digest)

/-- The reviewed inputs that no turn of the owner has taken in since. -/
def reviewedKeys (world : World Origin Digest) : List InputKey :=
  let absent := call.reviewedInputs.filter fun key =>
    key ∉ review.unknown.map fun row => row.key
  let delivered := (world.inputs.select (InputDispositions.keyIn absent)).rows.values.filter
    fun row => row.state.hasStarted && row.owner ∈ review.owners
  call.reviewedInputs.eraseDups.filter fun key => key ∉ delivered.map fun row => row.key

def changedGoal (goal : Goal) : Except WaitError Goal :=
  (Goal.make { goal.toGoalFields with
    state := .active
    revision := goal.revision + 1
    reportedTurn := if call.modelReport then call.reportedTurn else goal.reportedTurn
    progress := call.progress.getD goal.progress }).mapError .goal

/-- An eligible reply that is neither reviewed now nor was for this goal. -/
def leftPending (keys : List InputKey) (goal : Goal) (row : StoredInput Origin Digest) : Bool :=
  row.key ∈ review.eligible && row.key ∉ keys && goal.id ∉ row.goalReviews

def quoted (text : String) : String := "'" ++ text ++ "'"

def mentioned (names : List String) : String :=
  String.intercalate ", " (names.map fun name => "@" ++ name)

def pendingText (goal : Goal) (row : StoredInput Origin Digest) : String :=
  "Dependency reply " ++ toString (row.sequence.getD 0) ++ " is already pending or UNKNOWN. " ++
    "Call comms_inbox with standby=\x7b'goal_id': " ++ quoted goal.id ++
    ", 'wait_for': [" ++ String.intercalate ", " (call.waitFor.map quoted) ++ "]\x7d. " ++
    "Inspect standby_review.messages, then pass only standby_review.reviewed_inputs to " ++
    "comms_goal to wait for a later reply. Do not pass excluded owner or other dependency " ++
    "inputs. This does not mark them STARTED or replay them."

/-- The first eligible reply left pending is named in the refusal. -/
def requireNonePending (keys : List InputKey) (goal : Goal) : Except WaitError Unit :=
  match review.unknown.find? (leftPending review keys goal) with
  | some row => .error (.valueError (call.pendingText goal row))
  | none => .ok ()

def recordedWait (world : World Origin Digest)
    (thread : ThreadRow) (goal : Goal) : RecordedGoalWait where
  goalId := goal.id
  waitId := call.waitId
  revision := goal.revision
  afterSeq := review.throughSeq
  targets := review.targets.map Incarnation.birth
  owner := thread.birth
  targetTurnGenerations := review.targets.map fun target =>
    (world.registry.threads.get? (world.registry.canonicalName target.name)).bind fun thread =>
      thread.turn.map Prod.snd
  reportTurn := thread.turn

/-- `PreparedStandbyGoalAction.before_goal_publish`, inside the edit. -/
def publish (world : World Origin Digest) :
    Except WaitError (World Origin Digest × RecordedGoalWait) := do
  let thread ← world.registry.requireThread call.name
  let current ← orRefuse thread.goal (.relationViolation "No goal is set for this action.")
  let goal ← call.changedGoal current
  require (thread.birth = review.owner.birth ∧ review.currentForInput world = true)
    (.valueError "Goal, dependency or wait changed during reply review; inspect it again.")
  let keys := call.reviewedKeys review world
  require (∀ key ∈ keys, ∃ row ∈ review.unknown, row.key = key ∧ row.sequence ≠ none)
    (.valueError "Review only this recipient's exact unresolved bus input keys.")
  require (∀ key ∈ keys, key ∈ review.eligible)
    (.valueError "Review only direct inputs from these declared dependencies.")
  call.requireNonePending review keys goal
  require (call.answersLater = true)
    (.valueError ("No thread this wait names will answer (" ++
      mentioned (review.targets.map Incarnation.name) ++ "): none has a live bridge or " ++
      "process. Inspect its registered process before declaring standby."))
  require (call.closedGroup = [])
    (.valueError ("Standby would close a dependency wait group (" ++
      mentioned call.closedGroup ++ "). At least one agent must remain able to work or reply. " ++
      "Continue independent work or change the dependencies."))
  let observed := keys.filterMap fun key => review.unknown.find? fun row => row.key = key
  let (reviewed, _) ← (InputDispositions.reviewForGoal
    (run (InputOp.step digest) call.beforeReview world.inputs) keys review.owners
    goal.id ⟨goal.revision, call.reportedTurn⟩ observed).mapError .input
  let wait := call.recordedWait review world thread goal
  wait.check
  pure ({ world with
    inputs := run (InputOp.step digest) call.beforeRecord reviewed
    waits := world.waits.record wait }, wait)

def perform : Except WaitError
    (GoalInputReview Origin Digest × World Origin Digest × RecordedGoalWait) := do
  let review ← call.review digest unattributed start
  let (world, wait) ← call.publish digest review (call.atEdit digest start)
  pure (review, world, wait)

end Standby

/-! ### Releases -/

/-- One round of the release loop: what others do before its read, and before its edit. -/
structure Round (Origin Digest : Type) where
  beforeRead : List (WorldEvent Origin Digest)
  beforeEdit : List (WorldEvent Origin Digest)

/-- The worlds of a release: at its commit, and after it. -/
structure Released (Origin Digest : Type) where
  commit : World Origin Digest
  after : World Origin Digest

def releaseReviewedWait (review : GoalWaitReview) (note : String) (world : World Origin Digest) :
    Option (Released Origin Digest) := do
  let owner ← world.registry.threadsFor review.owner.incarnation
  let goal ← activeGoal owner.goal
  let wait ← review.wait
  let noted ← (Goal.make { goal.toGoalFields with
    progress := if goal.progress = "" then note else goal.progress ++ "\n\n" ++ note
    revision := goal.revision + 1 }).toOption
  if hget : world.registry.threads.get? owner.name = some owner then
    pure ⟨world, { world with
      registry := world.registry.withGoal owner noted hget
      waits := world.waits.consume wait.goalId wait.waitId }⟩
  else none

/-- Read silence, then recheck it in an edit; a changed fence or a newer candidate needs another
round. `permits` is the release's own condition at the edit. -/
def publishUnanswered (digest : String → Digest) (self : GoalWaitReview)
    (permits : World Origin Digest → Bool) (note : String) :
    GoalWaitReview → List (Round Origin Digest) → World Origin Digest →
      Option (Released Origin Digest)
  | _, [], _ => none
  | review, round :: rounds, world =>
    let read := world.after digest round.beforeRead
    if self.wait.any fun wait => wait.hasReply read.bus self.owner.birth then none
    else
      let edit := read.after digest round.beforeEdit
      if review.currentFor edit then
        if edit.bus.receivedAfter self.owner.birth read.bus.lastSeq then
          publishUnanswered digest self permits note review rounds edit
        else if permits edit then releaseReviewedWait self note edit
        else none
      else
        match GoalWaitReview.capture edit self.owner.incarnation with
        | .ok captured =>
          if captured.wait = self.wait ∧ captured.currentGoal captured.owner = true then
            publishUnanswered digest self permits note captured rounds edit
          else none
        | .error _ => none

end AgentComms.Waits
