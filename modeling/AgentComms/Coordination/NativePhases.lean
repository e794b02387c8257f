import AgentComms.Coordination.States

/-!
# Native phases and the durable attempt

A native turn moves through phases (`turn_phase.py`) that nest: a compaction keeps the phase it
resumes, and tools overlap. `durable_turn.py` projects each phase change after the model context
was committed onto the attempt's flat states, whose edges the attempt declares.
-/

namespace AgentComms.Coordination

open Library

inductive TurnPhase where
  | promptAcceptance | modelWait | providerRetry | summarizationRetry
  | compaction (resume : TurnPhase)
  | toolRunning (tools : List (String × String))
deriving DecidableEq

inductive NativeObservation where
  | promptAccepted
  | contextCommitted (inputId : String)
  | toolStarted (toolId title : String)
  | toolEnded (toolId : String)
  | compactionStarted | compactionEnded
  | providerRetryStarted | providerRetryEnded
  | summarizationRetryStarted | summarizationRetryEnded
  | modelProgress
deriving DecidableEq

namespace TurnPhase

def toolStarted (toolId title : String) : TurnPhase → TurnPhase
  | compaction resume => compaction (resume.toolStarted toolId title)
  | toolRunning tools => toolRunning (tools.filter (·.1 ≠ toolId) ++ [(toolId, title)])
  | _ => toolRunning [(toolId, title)]

def compacting : TurnPhase → TurnPhase
  | compaction resume => compaction resume
  | phase => compaction phase

def modelProgress : TurnPhase → TurnPhase
  | promptAcceptance => modelWait
  | phase => phase

/-- `PiEvent.on`, after the watchdog took the acceptance a tool event proves: a start enters
its phase, and an end leaves only the phase it ends. -/
def on (phase : TurnPhase) : NativeObservation → TurnPhase
  | .promptAccepted | .modelProgress => phase.modelProgress
  | .contextCommitted _ => phase
  | .toolStarted toolId title => phase.modelProgress.toolStarted toolId title
  | .toolEnded toolId =>
    match phase.modelProgress with
    | toolRunning tools =>
      let retained := tools.filter (·.1 ≠ toolId)
      if retained = [] then modelWait else toolRunning retained
    | current => current
  | .compactionStarted => phase.compacting
  | .compactionEnded =>
    -- the remembered phase is not resumed
    match phase with
    | compaction _ => modelWait
    | _ => phase
  | .providerRetryStarted => providerRetry
  | .providerRetryEnded => if phase = providerRetry then modelWait else phase
  | .summarizationRetryStarted => summarizationRetry
  | .summarizationRetryEnded => if phase = summarizationRetry then modelWait else phase

/-- The attempt state of a phase `DurableTurn` handles. -/
def durable : TurnPhase → Option LivePhase
  | modelWait => some .modelRunning
  | toolRunning _ => some .toolRunning
  | compaction _ => some .compaction
  | _ => none

end TurnPhase

namespace AttemptState

variable (attempt : AttemptState)

def modelStarted : Bool :=
  attempt.kind ∈ [.live .modelRunning, .live .toolRunning, .live .compaction, .live .settling]

def advance (phase : LivePhase) : Checked AttemptState :=
  if attempt.kind = .live phase then .ok attempt else attempt.observed phase false false true

def accepted : Checked AttemptState :=
  if attempt.kind = .live .promptStarting then attempt.advance .promptAccepted else .ok attempt

def context : Checked AttemptState :=
  if attempt.modelStarted then .ok attempt
  else do (← attempt.accepted).advance .modelRunning

def excursion (phase : TurnPhase) : Checked AttemptState :=
  match phase.durable with
  | some state => if attempt.modelStarted then attempt.advance state else .ok attempt
  | none => .ok attempt

def finish : Checked AttemptState := do
  require attempt.modelStarted (.identityConflict "native completion lacks model progress")
  attempt.observed .settling true true true

/-- What the durable turn makes of the observation itself. -/
def hear (inputId : String) : NativeObservation → Checked AttemptState
  | .promptAccepted => attempt.accepted
  | .contextCommitted committed =>
    if committed = inputId then attempt.context else .ok attempt
  | _ => .ok attempt

end AttemptState

structure NativeTurn where
  phase : TurnPhase
  attempt : AttemptState

namespace NativeTurn

/-- The durable turn hears the observation and the phase change it made. -/
def observe (inputId : String) (event : NativeObservation) (turn : NativeTurn) :
    Checked NativeTurn := do
  let heard ← turn.attempt.hear inputId event
  let phase := turn.phase.on event
  let attempt ← if phase = turn.phase then .ok heard else heard.excursion phase
  return ⟨phase, attempt⟩

/-- The sequence is taken in whole and, where its context was committed, the turn finishes. -/
def Durable (inputId : String) (turn : NativeTurn) (events : List NativeObservation) : Prop :=
  ∃ last, events.foldlM (fun turn event => turn.observe inputId event) turn = .ok last ∧
    (last.attempt.modelStarted → ∃ settled, last.attempt.finish = .ok settled)

/-- No compaction starts while the attempt runs a tool, and no tool while it compacts, unless
the turn is compacting too. -/
def Admits (turn : NativeTurn) : NativeObservation → Prop
  | .compactionStarted => turn.attempt.kind ≠ .live .toolRunning
  | .toolStarted _ _ =>
    turn.attempt.kind = .live .compaction → turn.phase.durable = some .compaction
  | _ => True

/-- No edge leads from a tool to a compaction or back. -/
def Apart (state next : LivePhase) : Prop :=
  (state = .toolRunning → next ≠ .compaction) ∧ (state = .compaction → next ≠ .toolRunning)

def Contextual (state : LivePhase) : Prop :=
  state = .modelRunning ∨ state = .toolRunning ∨ state = .compaction

/-- Before the context the attempt follows no phase; after it, it could be asked for the
phase of the turn. -/
def Follows (phase : TurnPhase) (state : LivePhase) : Prop :=
  state = .promptStarting ∨ state = .promptAccepted ∨
    Contextual state ∧ ∀ next ∈ phase.durable, Apart state next

abbrev running (state : LivePhase) (lease : Time) : AttemptState :=
  .live state lease false false

/-- An observation that is admitted, and no other, leaves the attempt in `next`. -/
def Leads (inputId : String) (turn : NativeTurn) (event : NativeObservation) (lease : Time)
    (next : LivePhase) : Prop :=
  Follows (turn.phase.on event) next ∧ ∀ last, turn.observe inputId event = .ok last ↔
    turn.Admits event ∧ ⟨turn.phase.on event, running next lease⟩ = last

variable {inputId : String} {lease : Time} {phase : TurnPhase} {state next : LivePhase}
  {event : NativeObservation} {events : List NativeObservation} {result : AttemptState}

open AttemptState

theorem Apart.refl (state : LivePhase) : Apart state state := by
  constructor <;> rintro rfl <;> decide

theorem durable_cons {turn : NativeTurn} :
    Durable inputId turn (event :: events) ↔
      ∃ next, observe inputId event turn = .ok next ∧ Durable inputId next events := by
  simp only [Durable, List.foldlM_cons, bind_eq_ok]
  grind

theorem observed_running {done dead progress : Bool} :
    (running state lease).observed next done dead progress = .ok result ↔
      (next = state ∨ next ∈ state.successors) ∧ .live next lease done dead = result := by
  simp [observed, map_eq_ok]

theorem contextual_of_durable (hnext : phase.durable = some next) : Contextual next := by
  cases phase <;> simp_all [TurnPhase.durable, Contextual, eq_comm]

theorem admits_iff (hfollows : ∀ next ∈ phase.durable, Apart state next) :
    Admits ⟨phase, running state lease⟩ event ↔
      ∀ next ∈ (phase.on event).durable, Apart state next := by
  cases event <;> cases phase
  case toolEnded.toolRunning =>
    simp only [Admits, TurnPhase.on, TurnPhase.modelProgress, true_iff]
    split <;> simp_all [TurnPhase.durable, Apart]
  all_goals
    simp_all [Admits, TurnPhase.on, TurnPhase.durable, TurnPhase.modelProgress,
      TurnPhase.toolStarted, TurnPhase.compacting, Apart, kind]

/-- Before the context nothing is refused. -/
theorem leads_of_starting (inputId : String) (event : NativeObservation)
    (hstate : state = .promptStarting ∨ state = .promptAccepted) :
    ∃ next, Leads inputId ⟨phase, running state lease⟩ event lease next := by
  have hadmits : Admits ⟨phase, running state lease⟩ event := by
    rcases hstate with rfl | rfl <;> cases event <;> simp [Admits, kind]
  by_cases hcontext : event = .contextCommitted inputId
  · refine ⟨.modelRunning, .inr (.inr ⟨.inl rfl, by simp [Apart]⟩), fun last => ?_⟩
    subst hcontext
    rcases hstate with rfl | rfl <;>
      simp [observe, TurnPhase.on, hear, context, modelStarted, kind, accepted, advance,
        observed_running, LivePhase.successors, hadmits]
  have hheard : ∃ next, (next = .promptStarting ∨ next = .promptAccepted) ∧
      (running state lease).hear inputId event = .ok (running next lease) := by
    cases event with
    | promptAccepted => exact ⟨.promptAccepted, .inr rfl, by rcases hstate with rfl | rfl <;> rfl⟩
    | contextCommitted => exact ⟨state, hstate, if_neg fun hsame => hcontext (by rw [hsame])⟩
    | _ => exact ⟨state, hstate, rfl⟩
  obtain ⟨next, hnext, hheard⟩ := hheard
  have hexcursion : (running next lease).excursion (phase.on event) = .ok (running next lease) := by
    rcases hnext with rfl | rfl <;> cases phase.on event <;> rfl
  refine ⟨next, hnext.imp_right .inl, fun last => ?_⟩
  simp [observe, hheard, hexcursion, hadmits]

section Contextual

variable (hstate : Contextual state)
include hstate

theorem hear_contextual : (running state lease).hear inputId event = .ok (running state lease) := by
  rcases hstate with rfl | rfl | rfl <;> cases event <;>
    simp [hear, accepted, context, modelStarted, kind]

/-- A contextual attempt follows a phase change exactly where tools and compactions are apart. -/
theorem excursion_contextual (hnext : phase.durable = some next) :
    (running state lease).excursion phase = .ok result ↔
      Apart state next ∧ running next lease = result := by
  rw [excursion, hnext]
  rcases hstate with rfl | rfl | rfl <;> rcases contextual_of_durable hnext with rfl | rfl | rfl <;>
    simp [modelStarted, kind, advance, observed_running, LivePhase.successors, Apart]

theorem leads_of_contextual (hfollows : ∀ next ∈ phase.durable, Apart state next)
    (inputId : String) (event : NativeObservation) :
    ∃ next, Leads inputId ⟨phase, running state lease⟩ event lease next := by
  have hadmits := @admits_iff lease phase state event hfollows
  simp only [Leads, observe, hear_contextual hstate, hadmits, bind_eq_ok]
  cases hnext : (phase.on event).durable with
  | none =>
    refine ⟨state, .inr (.inr ⟨hstate, by simp [hnext]⟩), fun last => ?_⟩
    simp [excursion, hnext]
  | some next =>
    by_cases hsame : phase.on event = phase
    · refine ⟨state, .inr (.inr ⟨hstate, by rwa [hsame]⟩), fun last => ?_⟩
      have hapart := hfollows next (hsame ▸ hnext)
      simp [hsame, hapart]
    · refine ⟨next, .inr (.inr ⟨contextual_of_durable hnext, ?_⟩), fun last => ?_⟩
      · simp [hnext, Apart.refl]
      · simp [hsame, excursion_contextual hstate hnext, map_eq_ok]

end Contextual

/-- By induction over the observations. -/
theorem durable_iff (hfollows : Follows phase state) :
    Durable inputId ⟨phase, running state lease⟩ events ↔
      Along Admits (observe inputId) events ⟨phase, running state lease⟩ ∧
      (run (observe inputId) events ⟨phase, running state lease⟩).attempt.kind ≠
        .live .compaction := by
  induction events generalizing phase state with
  | nil =>
    rcases hfollows with rfl | rfl | ⟨rfl | rfl | rfl, -⟩ <;>
      simp [Durable, Along, run, modelStarted, kind, finish, observed_running, LivePhase.successors]
  | cons event events ih =>
    obtain ⟨next, hnext, hobserve⟩ :
        ∃ next, Leads inputId ⟨phase, running state lease⟩ event lease next := by
      rcases hfollows with hstate | hstate | ⟨hstate, hfollows⟩
      · exact leads_of_starting inputId event (.inl hstate)
      · exact leads_of_starting inputId event (.inr hstate)
      · exact leads_of_contextual hstate hfollows inputId event
    rw [Along, run_cons, and_assoc, durable_cons]
    simp only [hobserve, and_assoc, exists_and_left, exists_eq_left']
    refine and_congr_right fun hadmits => ?_
    rw [commit_of_ok ((hobserve _).mpr ⟨hadmits, rfl⟩)]
    exact ih hnext

/-- A turn's observations all find a durable phase, and the turn can finish, exactly when the
state before each one admits it and the attempt is not left compacting. -/
theorem native_progress_durable_iff (inputId : String) (lease : Time)
    (events : List NativeObservation) :
    Durable inputId ⟨.promptAcceptance, running .promptStarting lease⟩ events ↔
      Along Admits (observe inputId) events ⟨.promptAcceptance, running .promptStarting lease⟩ ∧
      (run (observe inputId) events
        ⟨.promptAcceptance, running .promptStarting lease⟩).attempt.kind ≠ .live .compaction :=
  durable_iff (.inl rfl)

/-- A compaction that starts while a tool runs is refused. -/
theorem compaction_in_tool_refused :
    [.promptAccepted, .contextCommitted "i", .toolStarted "t" "read", .compactionStarted].foldlM
        (fun turn event => observe "i" event turn)
        ⟨.promptAcceptance, running .promptStarting 0⟩ =
      .error (.identityConflict "attempt phase edge is not declared") := by
  rfl

end NativeTurn

end AgentComms.Coordination
