import AgentComms.Goals.States

/-!
# Goal actions

`goal_actions.py`: who may take which action, what each action makes of the declared goal,
and what it writes to the attempt ledger on the way. The transition actions share one
`change` whose hooks the members override; `GoalAction.apply` is the parent every action
goes through.

What an action reads from the other stores comes with its context: the ledger as it finds
it, whether the thread executes a turn, whether Todos are assigned or pending, and the
verdict of the writes made in the same call (the Todo transaction of an order, the wait of a
prepared standby, the registration). A fresh id or grant is a field of the context.
-/

namespace AgentComms.Goals

open Library

/-! ### Actors -/

inductive GoalActor where
  | model
  | owner
  | runtime
  | ownerControl
  | peer
deriving DecidableEq, Repr

namespace GoalActor

def actorIsOwner (actor : GoalActor) : Bool := actor = owner

def actorReportsTurn (actor : GoalActor) : Bool := actor = model

def actorPauseSource : GoalActor → PauseSource
  | owner => .owner
  | peer => .model
  | model | runtime | ownerControl => .runtime

def requireActorConsent (actor : GoalActor) (declared : Option Goal) : Checked Unit :=
  match actor, declared with
  | peer, some goal => goal.state.requirePeerChange
  | _, _ => .ok ()

end GoalActor

/-! ### What an action reads -/

structure GoalContext where
  actor : GoalActor
  ledger : Ledger
  /-- The grant of the next ledger write. -/
  call : Nat
  /-- `RetryDecisionId.mint`. -/
  decision : String
  /-- `GoalId.mint` of an order that starts a goal. -/
  freshGoal : String
  executing : Bool
  reportedTurn : Option String
  processIdentity : Option Nat
  running : Bool
  /-- `todos.for_goal` is not empty. -/
  assigned : Bool
  holdsPending : Bool
  busRevision : Nat
  todoWrite : Checked Unit
  waitPublished : Checked Unit
  registration : Checked Unit

inductive GoalCheckpoint where
  | unobserved
  | absent
  | present (id : String) (revision : Nat)
deriving DecidableEq, Repr

def GoalCheckpoint.matches (checkpoint : GoalCheckpoint) (declared : Option Goal) : Bool :=
  match checkpoint, declared with
  | unobserved, _ => true
  | absent, none => true
  | present id revision, some goal => goal.id = id && goal.revision = revision
  | _, _ => false

structure GoalPrecondition where
  goalId : Option String
  expectedState : Option GoalState
  expectedOwner : Option Nat
  expectedCheckpoint : GoalCheckpoint
deriving DecidableEq, Repr

def GoalPrecondition.none : GoalPrecondition := ⟨.none, .none, .none, .unobserved⟩

def requireGoal (declared : Option Goal) : Checked Goal :=
  orRefuse declared (.relationViolation "No goal is set for this thread.")

def GoalPrecondition.check (expect : GoalPrecondition) (ctx : GoalContext)
    (declared : Option Goal) : Checked Unit := do
  require (expect.expectedCheckpoint.matches declared) .goalChanged
  match expect.expectedOwner with
  | some process =>
    require (ctx.processIdentity = some process ∧ ctx.running = true)
      (.valueError "The goal owner changed; refresh its state.")
  | .none => pure ()
  match expect.goalId with
  | some id =>
    let goal ← requireGoal declared
    require (goal.id = id)
      (.relationViolation "This goal was replaced or cleared; refresh its state.")
  | .none => pure ()
  match expect.expectedState with
  | some state =>
    let goal ← requireGoal declared
    require (goal.state = state) (.goalRefused goal.state.activityRefusal)
  | .none => pure ()

/-! ### Orders -/

namespace GoalOrder

def problemText : String := "Complete the assigned problems."

def requireOrder (ctx : GoalContext) : GoalOrder → Checked Unit
  | unordered => .ok ()
  | problem => require (ctx.assigned = true)
      (.valueError "The problem Goal has no assigned Todos.")

def requireReplacement (ctx : GoalContext) : GoalOrder → Checked Unit
  | unordered => .ok ()
  | problem => require (ctx.holdsPending = false)
      (.goalRefused "Finish or release the assigned problems before replacing this Goal.")

def requireCompletion : GoalOrder → Checked Unit
  | unordered => .ok ()
  | problem => .error (.goalRefused "Complete each problem with its checked delivered commit.")

def requireEdit : GoalOrder → Checked Unit
  | unordered => .ok ()
  | problem =>
    .error (.goalRefused "A problem Goal's text is derived from its assigned problems.")

def requireModelBlock : GoalOrder → Checked Unit
  | unordered => .ok ()
  | problem => .error (.goalRefused ("A problem goal is not blocked by text: ask the " ++
      "teammate to block the problem's Todo, or standby with wait_for naming the decider."))

end GoalOrder

/-! ### The attempt ledger under an action -/

namespace GenerationState

def allowsResume (executing : Bool) : GenerationState → Bool
  | ready _ => true
  | reserved _ => executing
  | blocked _ | completed _ | cancelled _ => false

/-- A status change alone resumes no unresolved attempt. -/
def resumeStatus (executing : Bool) : GenerationState → Checked Unit
  | blocked _ => .error (.goalRefused ("The interrupted goal attempt is unresolved. Inspect " ++
      "it, then use Retry to authorize a new attempt. Your messages can still be sent."))
  | lifecycle => require (lifecycle.allowsResume executing)
      (.goalRefused "The goal attempt is unresolved; inspect it before Retry.")

end GenerationState

namespace Ledger

variable (ledger : Ledger)

def requireGeneration (goalId : String) : Checked Generation :=
  orRefuse (ledger.generations.get? goalId) (.attempt (.missingGoalGeneration goalId))

/-- The lifecycle member decides how new work is authorised. -/
def authorizeCurrentRetry (goalId : String) (decision : WorkDecision) (call : Nat) :
    Checked Ledger := do
  let generation ← ledger.requireGeneration goalId
  match generation.lifecycle with
  | .ready _ =>
    (ledger.authorizeReadyRecovery goalId generation.number decision call).mapError .attempt
  | .blocked attemptId =>
    (ledger.authorizeRetry goalId generation.number attemptId decision call).mapError .attempt
  | .reserved attemptId => .error (.goalRefused ("The goal generation is reserved for attempt " ++
      toString attemptId ++ "; Retry cannot replace it. Inspect that attempt before deciding " ++
      "on new work."))
  | .completed _ =>
    .error (.goalRefused
      "The goal generation is completed; Retry cannot restart completed work.")
  | .cancelled _ =>
    .error (.goalRefused
      "The goal generation is cancelled; Retry cannot restart cancelled work.")

/-- An accepted order or answer continues a blocked generation only. -/
def continueWork (goalId : String) (decision : WorkDecision) (call : Nat) : Checked Ledger := do
  let generation ← ledger.requireGeneration goalId
  match generation.lifecycle with
  | .blocked _ => ledger.authorizeCurrentRetry goalId decision call
  | _ => pure ledger

def retire (goalId : String) : Checked Ledger :=
  match ledger.generations.get? goalId with
  | some generation =>
    if generation.lifecycle.terminal then .ok ledger
    else (ledger.retireGoal goalId generation.number generation.lifecycle.attemptId).mapError
      .attempt
  | none => .ok ledger

end Ledger

/-! ### Transition actions -/

inductive TransitionGoalAction where
  | active
  | complied (witness : String)
  | standby
  | completed
  | blocked (blockReason : Option String)
  | paused
  | chokeholdPaused
  | retry
deriving DecidableEq, Repr

def requiredBlockReason (reason : Option String) : Checked String := do
  let text ← orRefuse (reason.filter fun text => !blank text)
    (.valueError "Blocking a goal requires a nonempty reason for the needed input.")
  require ((strip text).length ≤ 1024)
    (.valueError "A blocked-goal reason must be at most 1024 characters.")
  pure (strip text)

namespace TransitionGoalAction

/-- The members that report a turn (`GoalReportAction`). -/
def reports : TransitionGoalAction → Bool
  | active | standby | completed | blocked _ => true
  | complied _ | paused | chokeholdPaused | retry => false

def requireOrder (ctx : GoalContext) (goal : Goal) : TransitionGoalAction → Checked Unit
  -- the problems of a held goal may close during the hold
  | complied _ => .ok ()
  | _ => goal.order.requireOrder ctx

def nextState (ctx : GoalContext) (goal : Goal) (progress : Option String) :
    TransitionGoalAction → Checked GoalState
  | active | complied _ | standby | retry => .ok .active
  | completed => .ok .completed
  | blocked blockReason => do
      if ctx.actor.actorReportsTurn then goal.order.requireModelBlock
      let reason ← requiredBlockReason (blockReason.or progress)
      .blocked <$> BlockReason.make reason
  -- a goal that is already paused keeps the source of its pause
  | paused => .ok (.paused (goal.state.pauseSource.getD ctx.actor.actorPauseSource))
  | chokeholdPaused => .ok (.paused .chokehold)

/-- Retry asks the attempt ledger; every other member asks the goal's own state. -/
def requireTransition (ctx : GoalContext) (goal : Goal) (state : GoalState) :
    TransitionGoalAction → Checked Ledger
  | retry => ctx.ledger.authorizeCurrentRetry goal.id (.retry ctx.decision) ctx.call
  | _ => do
      goal.state.checkTransition state ctx.actor.actorIsOwner
      pure ctx.ledger

def beforeTransition (ctx : GoalContext) (goal : Goal) (ledger : Ledger) :
    TransitionGoalAction → Checked Ledger
  | active => do
      let generation ← ledger.requireGeneration goal.id
      generation.lifecycle.resumeStatus ctx.executing
      pure ledger
  | complied witness => do
      let continued ← ledger.continueWork goal.id (.compliance witness) ctx.call
      let resumed ← continued.requireGeneration goal.id
      resumed.lifecycle.resumeStatus ctx.executing
      pure continued
  | completed => do
      goal.order.requireCompletion
      pure ledger
  | standby | blocked _ | paused | chokeholdPaused | retry => .ok ledger

def beforeGoalPublish (ctx : GoalContext) : TransitionGoalAction → Checked Unit
  | standby => ctx.waitPublished
  | _ => .ok ()

def reported (action : TransitionGoalAction) (ctx : GoalContext) (goal : Goal) : Goal :=
  if action.reports && ctx.actor.actorReportsTurn then
    { goal with
      reportedTurn := ctx.reportedTurn
      accepted := goal.accepted }
  else goal

def change (action : TransitionGoalAction) (progress : Option String) (ctx : GoalContext)
    (declared : Goal) : Checked (Goal × Ledger) := do
  let goal := action.reported ctx declared
  action.requireOrder ctx goal
  let state ← action.nextState ctx goal progress
  let authorised ← action.requireTransition ctx goal state
  let ledger ← action.beforeTransition ctx goal authorised
  let changed ← Goal.make { goal.toGoalFields with
    state := state
    revision := goal.revision + 1
    progress := progress.getD goal.progress }
  action.beforeGoalPublish ctx
  pure (changed, ledger)

end TransitionGoalAction

/-! ### Actions -/

inductive GoalAction where
  | transition (action : TransitionGoalAction) (progress : Option String)
  | sentBackOrder
  | headReviewedOrder
  | setGoal (text : String) (order : GoalOrder) (goalId : String)
  | order (orderId : String)
  | reissuedOrder (orderId : String)
  | createProblem (orderId : String)
  | clear
  | edit (text : String)
deriving DecidableEq, Repr

def TransitionGoalAction.actors : TransitionGoalAction → List GoalActor
  | active => [.model, .owner, .runtime, .ownerControl, .peer]
  | complied _ => [.owner]
  | standby => [.model, .runtime]
  | completed | blocked _ | retry => [.model, .owner, .runtime]
  | paused | chokeholdPaused => [.owner, .runtime, .ownerControl, .peer]

def GoalAction.actors : GoalAction → List GoalActor
  | transition action _ => action.actors
  | sentBackOrder | headReviewedOrder | order _ | reissuedOrder _ | createProblem _ => [.runtime]
  | setGoal _ _ _ | edit _ => [.owner, .runtime, .peer]
  | clear => [.owner, .runtime, .ownerControl, .peer]

/-- `declared_name!r`; the prepared standby has none. -/
def GoalAction.declaredName : GoalAction → String
  | transition action _ =>
    match action with
    | .active => "'active'"
    | .complied _ => "'complied'"
    | .standby => "None"
    | .completed => "'completed'"
    | .blocked _ => "'blocked'"
    | .paused => "'paused'"
    | .chokeholdPaused => "'chokehold_paused'"
    | .retry => "'retry'"
  | sentBackOrder => "'sent_back_order'"
  | headReviewedOrder => "'head_reviewed_order'"
  | setGoal _ _ _ => "'set'"
  | order _ => "'order'"
  | reissuedOrder _ => "'reissued_order'"
  | createProblem _ => "'create_problem'"
  | clear => "'clear'"
  | edit _ => "'edit'"

def createGoal (ctx : GoalContext) (text : String) (order : GoalOrder) (goalId : String) :
    Checked (Goal × Ledger) := do
  let goal ← Goal.make ⟨strip text, goalId, ctx.busRevision, "", 1, none, .active, order⟩
  let ledger ← (ctx.ledger.createGoal goalId ctx.call).mapError .attempt
  pure (goal, ledger)

variable (ctx : GoalContext)

/-- `HeldOrderGoalAction.change`: the Todo operation and the holder's goal in one write. -/
def changeHeldOrder (goal : Goal) : Checked (Goal × Ledger) := do
  ctx.todoWrite
  let changed ← Goal.make { goal.toGoalFields with revision := goal.revision + 1 }
  pure (changed, ctx.ledger)

def continueGoal (orderId : String) (goal : Goal) : Checked (Goal × Ledger) := do
  ctx.todoWrite
  let ledger ← ctx.ledger.continueWork goal.id (.order orderId) ctx.call
  let changed ← Goal.make { goal.toGoalFields with
    order := .problem
    text := GoalOrder.problemText
    progress := ""
    revision := goal.revision + 1 }
  pure (changed, ledger)

def startGoal : Checked (Goal × Ledger) := do
  ctx.todoWrite
  createGoal ctx GoalOrder.problemText .problem ctx.freshGoal

/-- `accept_order` of the goal's state. -/
def acceptOrder (orderId : String) (goal : Goal) : Checked (Goal × Ledger) :=
  match goal.state with
  | .active => continueGoal ctx orderId goal
  | .paused _ => do
      goal.state.requireModelResume
      continueGoal ctx orderId goal
  | .blocked _ | .unrecordedBlock => do
      let (continued, ledger) ← continueGoal ctx orderId goal
      let changed ← Goal.make { continued.toGoalFields with state := .active }
      pure (changed, ledger)
  | .completed => do
      goal.order.requireReplacement ctx
      startGoal ctx

def replaceGoal (text : String) (order : GoalOrder) (goalId : String)
    (goal : Goal) : Checked (Goal × Ledger) :=
  if goal.id = goalId then do
    require (goal.text = strip text ∧ goal.order = order)
      (.valueError "Goal identity already has different instructions.")
    pure (goal, ctx.ledger)
  else do
    goal.order.requireReplacement ctx
    createGoal ctx text order goalId

def editGoal (text : String) (goal : Goal) : Checked (Goal × Ledger) := do
  goal.order.requireEdit
  require (blank text = false) (.valueError "A goal requires text.")
  let changed ← Goal.make { goal.toGoalFields with
    text := strip text
    revision := goal.revision + 1 }
  pure (changed, ctx.ledger)

namespace GoalAction

def change (ctx : GoalContext) (goal : Goal) : GoalAction → Checked (Option Goal × Ledger)
  | transition action progress => Prod.map some id <$> action.change progress ctx goal
  | sentBackOrder | headReviewedOrder => Prod.map some id <$> changeHeldOrder ctx goal
  | setGoal text goalOrder goalId => Prod.map some id <$> replaceGoal ctx text goalOrder goalId goal
  | order orderId | reissuedOrder orderId | createProblem orderId =>
    Prod.map some id <$> acceptOrder ctx orderId goal
  | clear => do
      goal.order.requireReplacement ctx
      pure (none, ctx.ledger)
  | edit text => Prod.map some id <$> editGoal ctx text goal

def create (ctx : GoalContext) : GoalAction → Checked (Option Goal × Ledger)
  | setGoal text goalOrder goalId => Prod.map some id <$> createGoal ctx text goalOrder goalId
  | order _ | reissuedOrder _ | createProblem _ => Prod.map some id <$> startGoal ctx
  | clear => .ok (none, ctx.ledger)
  | transition _ _ | sentBackOrder | headReviewedOrder | edit _ =>
    .error (.relationViolation "No goal is set for this action.")

/-- A replacement retires the goal it replaces. -/
def beforePublish (declared : Option Goal) (ledger : Ledger) : GoalAction → Checked Ledger
  | setGoal _ _ _ | clear =>
    match declared with
    | some previous => ledger.retire previous.id
    | none => .ok ledger
  | _ => .ok ledger

def apply (action : GoalAction) (expect : GoalPrecondition) (ctx : GoalContext)
    (declared : Option Goal) : Checked (Option Goal × Ledger) := do
  expect.check ctx declared
  require (ctx.actor ∈ action.actors)
    (.valueError ("This actor cannot take goal action " ++ action.declaredName ++ "."))
  ctx.actor.requireActorConsent declared
  let (goal, ledger) ← match declared with
    | some current => action.change ctx current
    | none => action.create ctx
  if goal = declared then pure (goal, ledger)
  else do
    let published ← action.beforePublish declared ledger
    ctx.registration
    pure (goal, published)

end GoalAction

end AgentComms.Goals
