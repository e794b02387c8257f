import AgentComms.Goals.Actions

/-!
# The owner's pause

A run of goal actions on one goal, each with the attempt ledger it finds. While the goal is
paused by the owner, the actions of everyone else leave its state as it is; the two ways
round the pause are the actions that ask the attempt ledger instead of the goal's state
(`RetryGoalAction`) or that are taken in the owner's name (`CompliedGoalAction`).
-/

namespace AgentComms.Goals

open Library

/-! ### Runs -/

structure GoalStep where
  action : GoalAction
  expect : GoalPrecondition
  ctx : GoalContext

namespace GoalStep

def apply (step : GoalStep) (declared : Option Goal) : Checked (Option Goal × Ledger) :=
  step.action.apply step.expect step.ctx declared

def isComplied (step : GoalStep) : Bool :=
  match step.action with
  | .transition (.complied _) _ => true
  | _ => false

def byOwner (step : GoalStep) : Bool := step.ctx.actor.actorIsOwner && !step.isComplied

end GoalStep

/-- The goal after a run, as long as it is the same goal: a refused action leaves it, and a
run that replaces or clears it has no such goal. -/
def follow : List GoalStep → Goal → Option Goal
  | [], goal => some goal
  | step :: steps, goal =>
    match step.apply (some goal) with
    | .ok (some next, _) => if next.id = goal.id then follow steps next else none
    | .ok (none, _) => none
    | .error _ => follow steps goal

/-- The ledger authorises new work of the goal on request. -/
def Ledger.retryable (ledger : Ledger) (goalId : String) : Bool :=
  match ledger.generations.get? goalId with
  | some generation =>
    match generation.lifecycle with
    | .ready _ | .blocked _ => true
    | .reserved _ | .completed _ | .cancelled _ => false
  | none => false

def Ledger.resumable (ledger : Ledger) (goalId : String) (executing : Bool) : Bool :=
  match ledger.generations.get? goalId with
  | some generation =>
    match generation.lifecycle with
    | .ready _ | .blocked _ => true
    | .reserved _ => executing
    | .completed _ | .cancelled _ => false
  | none => false

/-- The two actions that go round a pause meet a ledger that refuses them. -/
def GoalStep.Fenced (goalId : String) (step : GoalStep) : Prop :=
  match step.action with
  | .transition .retry _ =>
    step.ctx.actor = .owner ∨ step.ctx.ledger.retryable goalId = false
  | .transition (.complied _) _ =>
    step.ctx.ledger.resumable goalId step.ctx.executing = false
  | _ => True

/-! ### What the calls of an action require -/

theorem GoalState.checkTransition_owner {next : GoalState} {owner : Bool}
    (hok : (GoalState.paused .owner).checkTransition next owner = .ok ()) : owner = true := by
  simp only [checkTransition, do_eq_ok] at hok
  obtain ⟨_, -, hprotected | howner⟩ := hok
  · cases hprotected
  · exact howner

theorem GenerationState.allowsResume_of_status {lifecycle : GenerationState} {executing : Bool}
    (hok : lifecycle.resumeStatus executing = .ok ()) :
    lifecycle.allowsResume executing = true := by
  cases lifecycle with
  | blocked => cases hok
  | ready digest | reserved attemptId | completed attemptId | cancelled attemptId =>
    simp only [resumeStatus, require_eq_ok] at hok
    exact hok

theorem Ledger.resumable_of_complied {ctx : GoalContext} {goal : Goal} {ledger after : Ledger}
    {witness : String}
    (hok : (TransitionGoalAction.complied witness).beforeTransition ctx goal ledger = .ok after) :
    ledger.resumable goal.id ctx.executing = true := by
  simp only [TransitionGoalAction.beforeTransition, continueWork, requireGeneration,
    do_eq_ok] at hok
  obtain ⟨continued, ⟨generation, hget, hcontinue⟩, resumed, hresumed, _, hstatus, -⟩ := hok
  cases hlifecycle : generation.lifecycle with
  | ready | blocked => simp [resumable, hget, hlifecycle]
  | reserved attemptId | completed attemptId | cancelled attemptId =>
    -- the work is not continued, so the generation that resumes is the one found
    rw [hlifecycle] at hcontinue
    simp only [pure_eq_ok] at hcontinue
    subst hcontinue
    rw [hget] at hresumed
    cases hresumed
    have hresume := GenerationState.allowsResume_of_status hstatus
    simp_all [GenerationState.allowsResume, resumable]

/-! ### One step under the owner's pause -/

section Change

variable {ctx : GoalContext} {goal next : Goal} {ledger : Ledger}

@[simp] theorem TransitionGoalAction.reported_state (action : TransitionGoalAction) :
    (action.reported ctx goal).state = goal.state := by
  unfold reported
  split <;> rfl

@[simp] theorem TransitionGoalAction.reported_id (action : TransitionGoalAction) :
    (action.reported ctx goal).id = goal.id := by
  unfold reported
  split <;> rfl

variable {action : TransitionGoalAction}

theorem TransitionGoalAction.requireTransition_eq_ok
    {state : GoalState} {after : Ledger} (hretry : action ≠ .retry)
    (hok : action.requireTransition ctx goal state = .ok after) :
    goal.state.checkTransition state ctx.actor.actorIsOwner = .ok () ∧ ctx.ledger = after := by
  cases action with
  | retry => exact absurd rfl hretry
  | active | complied _ | standby | completed | blocked _ | paused | chokeholdPaused =>
    simp only [requireTransition, do_eq_ok] at hok
    obtain ⟨_, hcheck, hledger⟩ := hok
    exact ⟨hcheck, hledger⟩

/-- A transition passed its check, and its hook before the write. -/
theorem TransitionGoalAction.change_eq_ok
    {progress : Option String} (hok : action.change progress ctx goal = .ok (next, ledger)) :
    ∃ state authorised after, action.nextState ctx (action.reported ctx goal) progress = .ok state ∧
      action.requireTransition ctx (action.reported ctx goal) state = .ok authorised ∧
      action.beforeTransition ctx (action.reported ctx goal) authorised = .ok after ∧
      next.state = state := by
  simp only [change, do_eq_ok] at hok
  obtain ⟨_, -, state, hstate, authorised, hauthorised, after, hafter, changed, hmake, _, -,
    rfl, -⟩ := hok
  have hfields := Goal.make_eq_ok hmake
  exact ⟨state, authorised, after, hstate, hauthorised, hafter, by rw [hfields]⟩

/-- On a goal the owner paused, a transition is the owner's, or one the ledger lets through. -/
theorem TransitionGoalAction.change_ownerPause
    {progress : Option String} (hpaused : goal.state = .paused .owner)
    (hok : action.change progress ctx goal = .ok (next, ledger)) :
    (action = .retry ∧ ctx.ledger.retryable goal.id = true) ∨
      (ctx.actor.actorIsOwner = true ∧ ∀ witness, action = .complied witness →
        ctx.ledger.resumable goal.id ctx.executing = true) := by
  obtain ⟨state, authorised, after, -, hauthorised, hafter, -⟩ := change_eq_ok hok
  by_cases hretry : action = .retry
  · subst hretry
    simp only [requireTransition, reported_id, Ledger.authorizeCurrentRetry,
      Ledger.requireGeneration, do_eq_ok] at hauthorised
    obtain ⟨generation, hget, hauthorised⟩ := hauthorised
    refine .inl ⟨rfl, ?_⟩
    cases hlifecycle : generation.lifecycle <;> simp_all [Ledger.retryable]
  · -- every other member asks the paused state itself
    obtain ⟨hcheck, rfl⟩ := requireTransition_eq_ok hretry hauthorised
    rw [reported_state, hpaused] at hcheck
    refine .inr ⟨GoalState.checkTransition_owner hcheck, ?_⟩
    rintro witness rfl
    have hresumable := Ledger.resumable_of_complied hafter
    rw [reported_id] at hresumable
    exact hresumable

theorem createGoal_id {text : String} {order : GoalOrder} {goalId : String}
    (hok : createGoal ctx text order goalId = .ok (next, ledger)) : next.id = goalId := by
  simp only [createGoal, do_eq_ok] at hok
  obtain ⟨made, hmake, _, -, rfl, -⟩ := hok
  rw [Goal.make_eq_ok hmake]

theorem changeHeldOrder_state (hok : changeHeldOrder ctx goal = .ok (next, ledger)) :
    next.state = goal.state := by
  simp only [changeHeldOrder, do_eq_ok] at hok
  obtain ⟨_, -, made, hmake, rfl, -⟩ := hok
  rw [Goal.make_eq_ok hmake]

theorem editGoal_state {text : String} (hok : editGoal ctx text goal = .ok (next, ledger)) :
    next.state = goal.state := by
  simp only [editGoal, do_eq_ok] at hok
  obtain ⟨_, -, _, -, made, hmake, rfl, -⟩ := hok
  rw [Goal.make_eq_ok hmake]

theorem acceptOrder_ownerPause {orderId : String} (hpaused : goal.state = .paused .owner) :
    acceptOrder ctx orderId goal ≠ .ok (next, ledger) := by
  intro hok
  simp only [acceptOrder, hpaused, bind_eq_ok] at hok
  obtain ⟨_, hresume, -⟩ := hok
  cases hresume

end Change

namespace GoalStep

variable {step : GoalStep} {goal next : Goal} {ledger : Ledger}

theorem change_of_apply (hok : step.apply (some goal) = .ok (some next, ledger)) :
    ∃ after, step.action.change step.ctx goal = .ok (some next, after) := by
  simp only [apply, GoalAction.apply, bind_eq_ok, Prod.exists] at hok
  obtain ⟨_, -, _, -, _, -, changed, after, hchange, hpublish⟩ := hok
  refine ⟨after, ?_⟩
  split at hpublish
  · simp only [do_eq_ok] at hpublish
    rw [← hpublish.1]
    exact hchange
  · simp only [do_eq_ok] at hpublish
    obtain ⟨_, -, _, -, rfl, -⟩ := hpublish
    exact hchange

/-- The step: only the owner itself moves a goal out of the owner's pause. -/
theorem keeps_ownerPause (hpaused : goal.state = .paused .owner) (hother : step.byOwner = false)
    (hfenced : step.Fenced goal.id) (hok : step.apply (some goal) = .ok (some next, ledger))
    (hsame : next.id = goal.id) : next.state = .paused .owner := by
  obtain ⟨after, hchange⟩ := change_of_apply hok
  rw [← hpaused]
  unfold Fenced at hfenced
  unfold byOwner isComplied at hother
  generalize step.action = action at hchange hfenced hother
  cases action with
  | transition action =>
    obtain ⟨⟨changed, written⟩, htransition, -⟩ := map_eq_ok.mp hchange
    exfalso
    obtain ⟨rfl, hretryable⟩ | ⟨howner, hcomplied⟩ :=
      TransitionGoalAction.change_ownerPause hpaused htransition
    · simp_all [GoalActor.actorIsOwner]
    · cases action <;> simp_all
  | sentBackOrder | headReviewedOrder =>
    obtain ⟨⟨changed, written⟩, hheld, heq⟩ := map_eq_ok.mp hchange
    cases heq
    exact changeHeldOrder_state hheld
  | setGoal =>
    obtain ⟨⟨changed, written⟩, hreplace, heq⟩ := map_eq_ok.mp hchange
    cases heq
    unfold replaceGoal at hreplace
    split at hreplace
    · simp only [do_eq_ok] at hreplace
      obtain ⟨_, -, rfl, -⟩ := hreplace
      rfl
    next hother =>
      simp only [bind_eq_ok] at hreplace
      obtain ⟨_, -, hcreate⟩ := hreplace
      exact absurd (hsame.symm.trans (createGoal_id hcreate)) hother
  | order orderId | reissuedOrder orderId | createProblem orderId =>
    obtain ⟨⟨changed, written⟩, haccept, -⟩ := map_eq_ok.mp hchange
    exact absurd haccept (acceptOrder_ownerPause hpaused)
  | clear =>
    simp only [GoalAction.change, do_eq_ok] at hchange
    obtain ⟨_, -, hnone, -⟩ := hchange
    cases hnone
  | edit =>
    obtain ⟨⟨changed, written⟩, hedit, heq⟩ := map_eq_ok.mp hchange
    cases heq
    exact editGoal_state hedit

/-- The owner's pause of a goal that no one else has paused is the owner's. -/
theorem state_of_ownerPause {progress : Option String} (howner : step.ctx.actor = .owner)
    (haction : step.action = .transition .paused progress)
    (hsource : goal.state.pauseSource = none ∨ goal.state.pauseSource = some .owner)
    (hok : step.apply (some goal) = .ok (some next, ledger)) : next.state = .paused .owner := by
  obtain ⟨after, hchange⟩ := change_of_apply hok
  rw [haction] at hchange
  obtain ⟨⟨changed, written⟩, htransition, heq⟩ := map_eq_ok.mp hchange
  cases heq
  obtain ⟨state, _, _, hstate, -, -, rfl⟩ := TransitionGoalAction.change_eq_ok htransition
  simp only [TransitionGoalAction.nextState, TransitionGoalAction.reported_state,
    Except.ok.injEq] at hstate
  rw [← hstate, howner]
  rcases hsource with hnone | hsome
  · rw [hnone]
    rfl
  · rw [hsome]
    rfl

end GoalStep

/-! ### Runs under the owner's pause -/

/-- The run: a goal in the owner's pause stays in it up to the first step of the owner that
moves it. -/
theorem follow_ownerPause {goal later : Goal} {steps : List GoalStep}
    (hpaused : goal.state = .paused .owner) (hfenced : ∀ step ∈ steps, step.Fenced goal.id)
    (hrun : follow steps goal = some later) :
    later.state = .paused .owner ∨
      ∃ before lift rest held lifted, steps = before ++ lift :: rest ∧ lift.byOwner = true ∧
        follow before goal = some held ∧ held.state = .paused .owner ∧
        follow [lift] held = some lifted ∧ lifted.state ≠ .paused .owner := by
  induction steps generalizing goal with
  | nil =>
    cases hrun
    exact .inl hpaused
  | cons step steps ih =>
    have hrest : ∀ other ∈ steps, other.Fenced goal.id :=
      fun other hmem => hfenced other (List.mem_cons_of_mem _ hmem)
    simp only [follow] at hrun
    split at hrun
    next next _ happly =>
      split at hrun
      next hsame =>
        by_cases hkept : next.state = .paused .owner
        · rw [← hsame] at hrest
          rcases ih hkept hrest hrun with hlater | hlifted
          · exact .inl hlater
          · obtain ⟨before, lift, rest, held, lifted, rfl, hlift, hbefore, hheld, hafter⟩ := hlifted
            refine .inr ⟨step :: before, lift, rest, held, lifted, rfl, hlift, ?_, hheld, hafter⟩
            simp only [follow, happly, hsame, if_true]
            exact hbefore
        · -- only the owner can have moved it here
          have howner : step.byOwner = true := by
            by_contra hother
            exact hkept (GoalStep.keeps_ownerPause hpaused (by simpa using hother)
              (hfenced step List.mem_cons_self) happly hsame)
          refine .inr ⟨[], step, steps, goal, next, rfl, howner, rfl, hpaused, ?_, hkept⟩
          simp only [follow, happly, hsame, if_true]
      · cases hrun
    · cases hrun
    next error happly =>
      rcases ih hpaused hrest hrun with hlater | hlifted
      · exact .inl hlater
      · obtain ⟨before, lift, rest, held, lifted, rfl, hlift, hbefore, hheld, hafter⟩ := hlifted
        refine .inr ⟨step :: before, lift, rest, held, lifted, rfl, hlift, ?_, hheld, hafter⟩
        simp only [follow, happly]
        exact hbefore

/-- The owner's pause of a goal that no one else holds lasts until a step of the owner itself,
in every run whose retries and compliance releases meet a ledger that refuses them. -/
theorem owner_pause_holds (pause : GoalStep) (goal paused : Goal) {ledger : Ledger}
    {progress : Option String} (howner : pause.ctx.actor = .owner)
    (haction : pause.action = .transition .paused progress)
    (hsource : goal.state.pauseSource = none ∨ goal.state.pauseSource = some .owner)
    (hok : pause.apply (some goal) = .ok (some paused, ledger)) (steps : List GoalStep)
    (hfenced : ∀ step ∈ steps, step.Fenced paused.id) (later : Goal)
    (hrun : follow steps paused = some later) :
    paused.state = .paused .owner ∧
      (later.state = .paused .owner ∨
        ∃ before lift rest held lifted, steps = before ++ lift :: rest ∧ lift.byOwner = true ∧
          follow before paused = some held ∧ held.state = .paused .owner ∧
          follow [lift] held = some lifted ∧ lifted.state ≠ .paused .owner) := by
  have hpaused := GoalStep.state_of_ownerPause howner haction hsource hok
  exact ⟨hpaused, follow_ownerPause hpaused hfenced hrun⟩

def workGoal (state : GoalState) : Goal where
  text := "work"
  id := "goal"
  publishedSeq := 0
  progress := ""
  revision := 1
  reportedTurn := none
  state := state
  order := .unordered
  accepted := by
    have hblank : blank "work" = false := by decide +kernel
    simp [GoalFields.check, require, hblank, bind, Except.bind]

def actionBy (actor : GoalActor) (action : GoalAction) (lifecycle : GenerationState) : GoalStep where
  action := action
  expect := .none
  ctx :=
    { actor := actor
      ledger := Ledger.empty.putGeneration "goal" ⟨1, lifecycle, Nat.one_pos⟩
      call := 1
      decision := "decision"
      freshGoal := "fresh"
      executing := false
      reportedTurn := none
      processIdentity := none
      running := true
      assigned := false
      holdsPending := false
      busRevision := 0
      todoWrite := .ok ()
      waitPublished := .ok ()
      registration := .ok () }

theorem owner_pause_holds_against_retry :
    ∃ paused ledger later,
      (actionBy .owner (.transition .paused none) (.ready 0)).apply (some (workGoal .active)) =
        .ok (some paused, ledger) ∧
      follow [actionBy .runtime (.transition .retry none) (.reserved 1),
        actionBy .peer (.transition .active none) (.ready 0)] paused = some later ∧
      paused.state = .paused .owner ∧
      (later.state = .paused .owner ∨
        ∃ before lift rest held lifted,
          [actionBy .runtime (.transition .retry none) (.reserved 1),
            actionBy .peer (.transition .active none) (.ready 0)] = before ++ lift :: rest ∧
          lift.byOwner = true ∧ follow before paused = some held ∧
          held.state = .paused .owner ∧ follow [lift] held = some lifted ∧
          lifted.state ≠ .paused .owner) := by
  refine ⟨_, _, _, rfl, rfl,
    owner_pause_holds (actionBy .owner (.transition .paused none) (.ready 0)) (workGoal .active) _
      rfl rfl (.inl rfl) rfl _ ?_ _ rfl⟩
  intro step hmem
  simp only [List.mem_cons, List.not_mem_nil, or_false] at hmem
  rcases hmem with rfl | rfl
  · exact .inr rfl
  · trivial

/-- The owner pauses a goal, and someone else makes it active again: a pause taken over
another one keeps the other's source, which anyone or an answered hold lifts; a retry asks
the ledger only; and a release is taken in the owner's name, whatever pause it meets. -/
theorem owner_pause_is_lifted_by_others :
    (follow [actionBy .owner (.transition .paused none) (.ready 0)]
        (workGoal (.paused .runtime))).map (fun goal => (goal.state, goal.revision)) =
        some (.paused .runtime, 2) ∧
      (follow [actionBy .owner (.transition .paused none) (.ready 0),
        actionBy .peer (.transition .active none) (.ready 0)]
        (workGoal (.paused .runtime))).map (·.state) = some .active ∧
      (follow [actionBy .owner (.transition .paused none) (.ready 0),
        actionBy .owner (.transition (.complied "answer") none) (.ready 0)]
        (workGoal (.paused .chokehold))).map (·.state) = some .active ∧
      (follow [actionBy .owner (.transition .paused none) (.ready 0)]
        (workGoal .active)).map (·.state) = some (.paused .owner) ∧
      (follow [actionBy .owner (.transition .paused none) (.ready 0),
        actionBy .model (.transition .retry none) (.ready 0)]
        (workGoal .active)).map (·.state) = some .active ∧
      (follow [actionBy .owner (.transition .paused none) (.ready 0),
        actionBy .owner (.transition (.complied "answer") none) (.ready 0)]
        (workGoal .active)).map (·.state) = some .active := by
  decide +kernel

end AgentComms.Goals
