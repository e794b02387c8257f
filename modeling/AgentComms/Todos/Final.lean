import AgentComms.Todos.Holds

/-!
# Closing a problem is final

A problem that is done stays done and unheld. Installed evidence stays on its order unless
an assignment carried it onto an open problem, or the problem is withdrawn after it was
installed, which a release in its history makes possible.
-/

namespace AgentComms.Todos

open Library
open Registry

/-- No assignment carries installed evidence, and no problem that carries some and was once
released is withdrawn. -/
def SparesEvidence (store : TodoStore) (command : TodoCommand) (row : Todo) : Prop :=
  match command.operation with
  | .assign _ _ _ sent _ => sent.order.evidence? = none
  | .withdraw .. => row.order.evidence? = none ∨ store.releases row.id = []
  | _ => True

theorem quiet_sparesEvidence : Quiet SparesEvidence := by
  rintro store row revision op (⟨_, _, _, rfl⟩ | ⟨_, _, _, _, rfl⟩) <;> exact trivial

def TodoStore.DoneUnheld (store : TodoStore) : Prop :=
  ∀ problem row, store.todos.get? problem = some row → row.state = .done → row.assignment = none

def TodoStore.EvidenceDone (store : TodoStore) : Prop :=
  ∀ problem row, store.todos.get? problem = some row → row.order.evidence? ≠ none →
    row.state = .done

/-- A link takes over an order that another stored row holds. -/
theorem sent_of_validate_link {revision : Nat} {actor : Actor} {sent : Todo} {unit : String}
    {store : TodoStore} {cut : RegistrySnapshot} {reads : Reads} {row : Todo}
    (hvalid : TodoCommand.validate ⟨revision, .link actor sent unit⟩ store cut reads row = .ok ()) :
    store.todos.get? sent.id = some sent := by
  simp only [TodoCommand.validate, TodoStore.current, do_eq_ok] at hvalid
  obtain ⟨stored, hstored, _, rfl, -⟩ := hvalid
  exact hstored

theorem ProblemOrder.evidence?_linked {order sent result : ProblemOrder}
    (hok : order.linked sent = .ok result) :
    result.evidence? = sent.evidence? ∧ result.deliverable = sent.deliverable := by
  cases order with
  | unordered | dropped =>
    cases hok
    exact ⟨by simp, by simp⟩
  | _ => cases hok

/-! ### One command -/

section Step

variable {store : TodoStore} {cut : RegistrySnapshot} {reads : Reads} {command : TodoCommand}
  {row result : Todo}

variable (hstep : RowStep store row command.operation result)
  (hdrop : ∀ actor newer message, command.operation = .drop actor newer message →
    row.assignment ≠ none)
include hstep hdrop

/-- A command leaves a done problem done and unheld. -/
theorem RowStep.stays_done (hdone : row.state = .done) (hunheld : row.assignment = none) :
    result.state = .done ∧ result.assignment = none := by
  generalize hop : command.operation = op at hstep
  cases hstep with
  | kept => exact ⟨hdone, hunheld⟩
  | assigned _ hstate =>
    rw [hdone, hunheld] at hstate
    obtain hstate | hstate := hstate <;> cases hstate
  | released hheld =>
    rw [hunheld] at hheld
    cases hheld
  | restored hopen | unmerged hopen | delivered hopen | stateChanged hopen | linked hopen =>
    exact absurd hdone hopen
  | reported | installed | withdrawn | finished | folded => exact ⟨rfl, rfl⟩
  | dropped => exact absurd hunheld (hdrop _ _ _ hop)

/-- Only a closing leaves a problem done that was not. -/
theorem RowStep.unheld_of_done (hrow : row.state = .done → row.assignment = none)
    (hdone : result.state = .done) : result.assignment = none := by
  by_cases hbefore : row.state = .done
  · exact (hstep.stays_done hdrop hbefore (hrow hbefore)).2
  · generalize command.operation = op at hstep
    cases hstep with
    | kept | assigned | released | restored | unmerged | delivered | dropped | linked =>
      exact absurd hdone hbefore
    | stateChanged _ hstate => exact absurd hdone hstate
    | reported | installed | withdrawn | finished | folded => rfl

/-- A command that spares evidence keeps it on the order of a done problem. -/
theorem RowStep.keeps_evidence (hspares : SparesEvidence store command row)
    (hvalid : command.validate store cut reads row = .ok ())
    (hdone : row.state = .done) (hunheld : row.assignment = none)
    (hcarries : row.order.evidence? ≠ none) : result.order.evidence? = row.order.evidence? := by
  obtain ⟨revision, op⟩ := command
  cases hstep with
  | kept _ hevidence => exact hevidence
  | assigned _ hstate =>
    rw [hdone, hunheld] at hstate
    obtain hstate | hstate := hstate <;> cases hstate
  | released => rfl
  | restored hopen | unmerged hopen | delivered hopen | stateChanged hopen | linked hopen
  | reported hopen | finished hopen => exact absurd hdone hopen
  | installed horder =>
    -- recording the run of an installed order again leaves the order as it is
    cases hbefore : row.order with
    | installed | installedMerged =>
      simp only [hbefore, ProblemOrder.install, do_eq_ok] at horder
      obtain ⟨_, -, rfl⟩ := horder
      rfl
    | _ => exact absurd (by rw [hbefore]; rfl) hcarries
  | withdrawn hprevious =>
    -- an unheld problem that was never released has no previous holder to withdraw from
    have hreleases : store.releases row.id = [] := hspares.resolve_left hcarries
    simp [Todo.holderState, hunheld, hreleases, Holder.previousAssignment] at hprevious
  | dropped => exact absurd hunheld (hdrop _ _ _ rfl)
  | folded =>
    simp only [TodoCommand.validate, Todo.requireOpen, do_eq_ok] at hvalid
    obtain ⟨_, -, _, -, target, -, _, -, _, hopen, -⟩ := hvalid
    exact absurd hdone hopen

omit hdrop in
/-- A command that spares evidence leaves none on a problem that is not done. -/
theorem RowStep.evidence_done (hspares : SparesEvidence store command row)
    (hvalid : command.validate store cut reads row = .ok ())
    (hunheld : store.DoneUnheld) (hstored : store.EvidenceDone)
    (hrow : store.todos.get? row.id = some row) (hcarries : result.order.evidence? ≠ none) :
    result.state = .done := by
  have hbefore : row.order.evidence? ≠ none → row.state = .done := hstored row.id row hrow
  obtain ⟨revision, op⟩ := command
  cases hstep with
  | kept _ hevidence => exact hbefore (hevidence ▸ hcarries)
  | assigned => exact absurd hspares hcarries
  | released | restored => exact hbefore hcarries
  | unmerged | dropped => exact absurd rfl hcarries
  | delivered _ _ hevidence =>
    exact hbefore (hevidence.resolve_left hcarries ▸ hcarries)
  | stateChanged hopen => exact absurd (hbefore hcarries) hopen
  | reported | installed | withdrawn | finished | folded => rfl
  | linked _ horder hheld =>
    -- the order comes from a held row, which is not done and so carries no evidence
    have hsent := sent_of_validate_link hvalid
    rw [(ProblemOrder.evidence?_linked horder).1] at hcarries
    have hnone := hunheld _ _ hsent (hstored _ _ hsent hcarries)
    rw [hheld] at hnone
    cases hnone

end Step

/-! ### Runs -/

section Runs

variable {meets : Condition} {store store' : TodoStore}

theorem StoreStep.doneUnheld (hstep : StoreStep meets store store') (hunheld : store.DoneUnheld) :
    store'.DoneUnheld := by
  refine hstep.forall_rows hunheld ?_ ?_ ?_
  · intro cut reads command row result hrow _ hstep _ hdrop
    exact hstep.unheld_of_done hdrop (hunheld row.id row hrow)
  · intro row result _ hopen hstep hdone
    cases hstep with
    | closed => rfl
    | waiting | reissued => exact absurd hdone hopen
  · intro new asked _ _ hdone
    cases hdone

theorem StoreStep.evidenceDone (hstep : StoreStep SparesEvidence store store')
    (hunheld : store.DoneUnheld) (hevidence : store.EvidenceDone) : store'.EvidenceDone := by
  refine hstep.forall_rows hevidence ?_ ?_ ?_
  · intro cut reads command row result hrow hspares hstep hvalid _
    exact hstep.evidence_done hspares hvalid hunheld hevidence hrow
  · intro row result hrow hopen hstep hcarries
    cases hstep with
    | closed => rfl
    | waiting _ hsame => exact absurd (hevidence row.id row hrow (hsame ▸ hcarries)) hopen
    | reissued => exact absurd rfl hcarries
  · intro new asked _ _ hcarries
    exact absurd rfl hcarries

def TodoStore.Closed (store : TodoStore) (problem : ProblemId) : Prop :=
  ∃ row, store.todos.get? problem = some row ∧ row.state = .done ∧ row.assignment = none

def TodoStore.Installed (store : TodoStore) (problem : ProblemId) (evidence : InstalledEvidence) :
    Prop :=
  ∃ row, store.todos.get? problem = some row ∧ row.state = .done ∧ row.assignment = none ∧
    row.order.evidence? = some evidence

theorem StoreStep.stays_closed (hstep : StoreStep meets store store') (hkeyed : store.Keyed)
    {problem : ProblemId} (hclosed : store.Closed problem) : store'.Closed problem := by
  obtain ⟨row, hrow, hdone, hunheld⟩ := hclosed
  obtain hkept | ⟨cut, reads, command, result, -, hstep, -, hdrop, hresult⟩ |
    ⟨result, hopen, -, -⟩ := hstep.follow_row hkeyed hrow
  · exact ⟨row, hkept, hdone, hunheld⟩
  · exact ⟨result, hresult, hstep.stays_done hdrop hdone hunheld⟩
  · exact absurd hdone hopen

theorem StoreStep.stays_installed (hstep : StoreStep SparesEvidence store store')
    (hkeyed : store.Keyed) {problem : ProblemId} {evidence : InstalledEvidence}
    (hinstalled : store.Installed problem evidence) : store'.Installed problem evidence := by
  obtain ⟨row, hrow, hdone, hunheld, hevidence⟩ := hinstalled
  obtain hkept | ⟨cut, reads, command, result, hspares, hstep, hvalid, hdrop, hresult⟩ |
    ⟨result, hopen, -, -⟩ := hstep.follow_row hkeyed hrow
  · exact ⟨row, hkept, hdone, hunheld, hevidence⟩
  · obtain ⟨hdone', hunheld'⟩ := hstep.stays_done hdrop hdone hunheld
    refine ⟨result, hresult, hdone', hunheld', ?_⟩
    rw [hstep.keeps_evidence hdrop hspares hvalid hdone hunheld (by simp [hevidence]), hevidence]
  · exact absurd hdone hopen

/-- Once a problem is done it is done and unheld after every further run; and if the run spares
evidence, the evidence its order carries stays as it is. -/
theorem closing_is_final (first rest : List StoreOp) (problem : ProblemId) (row : Todo)
    (hrow : (run StoreOp.apply first TodoWorld.empty).store.todos.get? problem = some row) :
    (row.state = .done → ∃ later,
      (run StoreOp.apply (first ++ rest) TodoWorld.empty).store.todos.get? problem = some later ∧
        later.state = .done ∧ later.assignment = none) ∧
      ∀ evidence, row.order.evidence? = some evidence →
        Along (StoreOp.Meets SparesEvidence) StoreOp.apply (first ++ rest) TodoWorld.empty →
        ∃ later,
          (run StoreOp.apply (first ++ rest) TodoWorld.empty).store.todos.get? problem =
              some later ∧ later.state = .done ∧ later.assignment = none ∧
            later.order.evidence? = some evidence := by
  have htracked := tracked_of_run first
  have hunheld : (run StoreOp.apply first TodoWorld.empty).store.DoneUnheld :=
    run_store_invariant TodoStore.DoneUnheld (by simp [TodoStore.DoneUnheld, TodoStore.empty])
      (fun _ _ hstep => hstep.doneUnheld) (fun _ _ _ _ _ => trivial) first (along_true first _)
  rw [run_append]
  constructor
  · intro hdone
    have hsteps := steps_of_run (fun _ _ _ _ _ => trivial) rest htracked
      (along_true rest _)
    exact steps_keep (fun hstep hkeyed => hstep.stays_closed hkeyed) hsteps htracked.keyed
      ⟨row, hrow, hdone, hunheld problem row hrow hdone⟩
  · intro evidence hevidence halong
    obtain ⟨hfirst, hrest⟩ := along_append.mp halong
    have hsteps := steps_of_run quiet_sparesEvidence rest htracked hrest
    have hboth := run_store_invariant (fun store => store.DoneUnheld ∧ store.EvidenceDone)
      ⟨by simp [TodoStore.DoneUnheld, TodoStore.empty],
        by simp [TodoStore.EvidenceDone, TodoStore.empty]⟩
      (fun _ _ hstep hinv => ⟨hstep.doneUnheld hinv.1, hstep.evidenceDone hinv.1 hinv.2⟩)
      quiet_sparesEvidence first hfirst
    have hdone := hboth.2 problem row hrow (by simp [hevidence])
    exact steps_keep (fun hstep hkeyed => hstep.stays_installed hkeyed) hsteps htracked.keyed
      ⟨row, hrow, hdone, hunheld problem row hrow hdone, hevidence⟩

end Runs

/-! ### A withdrawal after the installation -/

section Withdrawn

def lead : Actor := .recorded "lead" 5

def leadCommand (cut : RegistrySnapshot) (revision : Nat) (op : TodoOperation) : StoreOp :=
  .applyTogether cut [⟨"P1", ⟨revision, op⟩, sampleReads⟩]

def leadRelease (cut : RegistrySnapshot) : StoreOp :=
  leadCommand cut 1 (.release lead sampleAssignment "The holder is gone." (.recorded 20))

def installOps (cut : RegistrySnapshot) (revision : Nat) : List StoreOp :=
  [leadCommand cut revision
      (.deliver lead ⟨.operation, .recorded 30, none, none⟩ "order-1"),
   leadCommand cut (revision + 1) (.install lead "It runs." "run.log")]

def leadWithdrawal (cut : RegistrySnapshot) (revision : Nat) : StoreOp :=
  leadCommand cut revision (.withdraw lead "It is not wanted." none)

def sampleEvidence : InstalledEvidence := ⟨"It runs.", "run.log", by decide, by decide⟩

def problemView (ops : List StoreOp) :
    Option (TodoState × Option Assignment × Option InstalledEvidence) :=
  ((run StoreOp.apply ops TodoWorld.empty).store.todos.get? "P1").map
    fun row => (row.state, row.assignment, row.order.evidence?)

/-- A problem released once, then delivered and installed, is withdrawn: its evidence is gone. -/
theorem installed_problem_withdrawn :
    ∃ cut, RegistryDocument.empty.capture = .ok cut ∧
      problemView (heldOps ++ leadRelease cut :: installOps cut 2) =
        some (.done, none, some sampleEvidence) ∧
      problemView (heldOps ++ leadRelease cut :: installOps cut 2 ++ [leadWithdrawal cut 4]) =
        some (.done, none, none) := by
  exact exists_ok_of_decide (by decide +kernel)

/-- Without the release the withdrawal is refused and the evidence stays. -/
theorem closing_is_final_installed :
    ∃ cut, RegistryDocument.empty.capture = .ok cut ∧ ∃ later,
      (run StoreOp.apply ((heldOps ++ installOps cut 1) ++ [leadWithdrawal cut 3])
          TodoWorld.empty).store.todos.get? "P1" = some later ∧
        later.state = .done ∧ later.assignment = none ∧
        later.order.evidence? = some sampleEvidence := by
  have hrun : ∃ cut, RegistryDocument.empty.capture = .ok cut ∧
      problemView (heldOps ++ installOps cut 1) = some (.done, none, some sampleEvidence) ∧
      (run StoreOp.apply (heldOps ++ installOps cut 1) TodoWorld.empty).store.story = [] :=
    exists_ok_of_decide (by decide +kernel)
  obtain ⟨cut, hcut, hview, hstory⟩ := hrun
  obtain ⟨row, hrow, hfields⟩ := Option.map_eq_some_iff.mp hview
  obtain ⟨-, hrest⟩ := Prod.mk.inj hfields
  obtain ⟨-, hevidence⟩ := Prod.mk.inj hrest
  refine ⟨cut, hcut, (closing_is_final (heldOps ++ installOps cut 1) [leadWithdrawal cut 3] "P1"
    row hrow).2 sampleEvidence hevidence (along_append.mpr ⟨?_, ⟨fun row _ => .inr ?_, ?_⟩, trivial⟩)⟩
  · exact ⟨trivial, trivial, ⟨fun _ _ => trivial, fun _ _ => trivial⟩,
      ⟨fun _ _ => trivial, fun _ _ => trivial⟩, trivial⟩
  · simp [TodoStore.releases, TodoStore.events, hstory]
  · exact fun _ _ => trivial

end Withdrawn

end AgentComms.Todos
