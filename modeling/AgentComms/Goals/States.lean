import AgentComms.Goals.Ledger
import AgentComms.Library.Text

/-!
# Goal states

The stored state of a goal, who may pause it and who may lift the pause
(`goal_states.py`), and the goal record itself (`goals.py`). The mention source of a goal,
which no action reads, is left out.
-/

namespace AgentComms.Goals

open Library

inductive GoalError where
  | goalChanged
  | goalRefused (text : String)
  | relationViolation (text : String)
  | valueError (text : String)
  | attempt (error : AttemptError)
deriving DecidableEq, Repr

abbrev Checked := Except GoalError

/-! ### Pauses -/

inductive PauseSource where
  | owner
  | model
  | runtime
  | chokehold
deriving DecidableEq, Repr

namespace PauseSource

/-- What a protected pause tells whoever meets it. -/
def instruction : PauseSource → Option String
  | owner => some ("This goal was paused by the owner. Do not resume or continue it; wait for " ++
      "the owner to explicitly resume it using the goal controls.")
  | chokehold => some ("You ignored Tristan's vibe check, so Tristan paused this goal until " ++
      "you comply. Do not resume or continue it; Core resumes it when your answer quotes the " ++
      "pattern catalog.")
  | model | runtime => none

def protectsPause (source : PauseSource) : Bool := source.instruction.isSome

def requirePeerChange (source : PauseSource) : Checked Unit :=
  match source.instruction with
  | some instruction => .error (.valueError
      ("A teammate cannot change this goal while it is paused: " ++ instruction))
  | none => .ok ()

end PauseSource

/-! ### States -/

structure BlockReason where
  text : String
  bounded : blank text = false ∧ strip text = text ∧ text.length ≤ 1024
deriving DecidableEq, Repr

def BlockReason.make (text : String) : Checked BlockReason :=
  if hbounded : blank text = false ∧ strip text = text ∧ text.length ≤ 1024 then
    .ok ⟨text, hbounded⟩
  else .error (.valueError "A blocked goal requires a bounded explicit reason.")

inductive GoalState where
  | active
  | paused (source : PauseSource)
  | blocked (reason : BlockReason)
  | unrecordedBlock
  | completed
deriving DecidableEq, Repr

namespace GoalState

def mayBecome : GoalState → GoalState → Bool
  | active, _ | paused _, _ => true
  | blocked _, blocked _ | unrecordedBlock, blocked _ => true
  | completed, completed => true
  | _, _ => false

def pauseSource : GoalState → Option PauseSource
  | paused source => some source
  | _ => none

def transitionRefusal : GoalState → String
  | blocked _ | unrecordedBlock => "Blocked goal requires an explicit retry."
  | completed => "A completed goal cannot be resumed; set a new goal."
  | active | paused _ => "This goal cannot make that transition."

/-- A protected pause is lifted by the owner only. -/
def checkTransition (state next : GoalState) (owner : Bool) : Checked Unit := do
  require (state.mayBecome next) (.valueError state.transitionRefusal)
  match state with
  | paused source =>
    require (source.protectsPause = false ∨ owner = true)
      (.valueError (source.instruction.getD ""))
  | _ => pure ()

def requirePeerChange : GoalState → Checked Unit
  | paused source => source.requirePeerChange
  | _ => .ok ()

def requireModelResume : GoalState → Checked Unit
  | paused source =>
    match source.instruction with
    | some instruction => .error (.valueError instruction)
    | none => .ok ()
  | _ => .error (.valueError "This goal cannot be resumed; refresh its state.")

def activityRefusal (state : GoalState) : String :=
  match state with
  | blocked _ | unrecordedBlock => state.transitionRefusal
  | _ => (state.pauseSource.bind PauseSource.instruction).getD
      "This goal is no longer active; refresh its state."

end GoalState

/-! ### Goals -/

inductive GoalOrder where
  | unordered
  | problem
deriving DecidableEq, Repr

structure GoalFields where
  text : String
  id : String
  publishedSeq : Nat
  progress : String
  revision : Nat
  reportedTurn : Option String
  state : GoalState
  order : GoalOrder
deriving DecidableEq, Repr

def GoalFields.check (fields : GoalFields) : Checked Unit := do
  require (blank fields.text = false ∧ fields.id ≠ "")
    (.valueError "A goal requires text and an identity.")
  require (fields.revision < 2 ^ 63)
    (.valueError "Goal revision must be an exact nonnegative 63-bit integer.")

structure Goal extends GoalFields where
  accepted : toGoalFields.check = .ok ()
deriving DecidableEq

def Goal.make (fields : GoalFields) : Checked Goal :=
  match haccepted : fields.check with
  | .ok () => .ok ⟨fields, haccepted⟩
  | .error error => .error error

theorem Goal.make_eq_ok {fields : GoalFields} {goal : Goal} (hmake : Goal.make fields = .ok goal) :
    goal.toGoalFields = fields := by
  unfold Goal.make at hmake
  split at hmake
  · cases hmake
    rfl
  · cases hmake

end AgentComms.Goals
