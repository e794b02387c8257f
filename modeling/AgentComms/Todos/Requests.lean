import AgentComms.Todos.Final

/-!
# Completed requests have no undelivered work

Completing a request checks the orders linked to it once. Afterwards an order may become
deliverable again in one way only: a correction takes a recorded merge back. As long as no
merge is taken back under a completed request, no completed request has an order to deliver.
-/

namespace AgentComms.Todos

open Library
open Registry

/-- The row's order is linked to no completed request, if it is still to be delivered. -/
def Todo.ServesOpen (requests : Dict RequestId OwnerRequest) (row : Todo) : Prop :=
  row.order.deliverable = true → ∀ request asked, row.request = some request →
    requests.get? request = some asked → asked.state = .open

def TodoStore.RequestsServed (store : TodoStore) : Prop :=
  ∀ problem row, store.todos.get? problem = some row → row.ServesOpen store.requests

/-- A merge is taken back only while the problem's request is open. -/
def UnmergesOpen (store : TodoStore) (command : TodoCommand) (row : Todo) : Prop :=
  match command.operation with
  | .correctOrder _ _ (.mergedLink _) _ => ∀ request asked, row.request = some request →
      store.requests.get? request = some asked → asked.state = .open
  | _ => True

theorem quiet_unmergesOpen : Quiet UnmergesOpen := by
  rintro store row revision op (⟨_, _, _, rfl⟩ | ⟨_, _, _, _, rfl⟩) <;> exact trivial

/-- A command that closes the problem leaves no order to deliver. -/
theorem Todo.servesOpen_closedWith {requests : Dict RequestId OwnerRequest} {row : Todo}
    {order : ProblemOrder} (hclose : order.requireClose = .ok ()) :
    (row.closedWith order).ServesOpen requests := by
  intro hdeliverable
  have hnot := ProblemOrder.not_deliverable_of_requireClose hclose
  simp only [Todo.closedWith] at hdeliverable
  rw [hnot] at hdeliverable
  cases hdeliverable

section Step

variable {store store' : TodoStore} {cut : RegistrySnapshot} {reads : Reads}
  {command : TodoCommand} {row result : Todo}

theorem RowStep.servesOpen (hstep : RowStep store row command.operation result)
    (hmeets : UnmergesOpen store command row)
    (hvalid : command.validate store cut reads row = .ok ()) (hserved : store.RequestsServed)
    (hrow : store.todos.get? row.id = some row) : result.ServesOpen store.requests := by
  have hbefore : row.ServesOpen store.requests := hserved row.id row hrow
  obtain ⟨revision, op⟩ := command
  cases hstep with
  | kept hdeliverable => exact fun hresult => hbefore (hdeliverable ▸ hresult)
  | assigned =>
    -- the assignment was checked against an open request
    rintro - request asked ⟨⟩ hasked
    simp only [TodoCommand.validate, TodoStore.request, OwnerRequest.requireOpen, do_eq_ok,
      hasked] at hvalid
    obtain ⟨_, -, _, -, found, ⟨⟩, _, -, hopen⟩ := hvalid
    exact hopen
  | released | restored | stateChanged => exact hbefore
  | unmerged => exact fun _ => hmeets
  | delivered _ hdeliverable =>
    intro hresult
    rw [hdeliverable] at hresult
    cases hresult
  | reported _ hclose | installed _ hclose | withdrawn _ _ hclose | finished _ hclose =>
    exact Todo.servesOpen_closedWith hclose
  | dropped | folded =>
    intro hresult
    cases hresult
  | linked _ horder =>
    -- the order and its request come from a stored row
    have hsent := hserved _ _ (sent_of_validate_link hvalid)
    exact fun hresult => hsent ((ProblemOrder.evidence?_linked horder).2 ▸ hresult)

/-- What changes the rows keeps the requests, and a changed request serves no order to
deliver. -/
theorem StoreStep.requestsServed (hstep : StoreStep UnmergesOpen store store')
    (hserved : store.RequestsServed) : store'.RequestsServed := by
  have hrows : ∀ problem row, store'.todos.get? problem = some row →
      row.ServesOpen store.requests := by
    refine hstep.forall_rows hserved ?_ ?_ ?_
    · intro cut reads command row result hrow hmeets hstep hvalid _
      exact hstep.servesOpen hmeets hvalid hserved hrow
    · intro row result hrow _ hstep
      cases hstep with
      | closed hclose => exact Todo.servesOpen_closedWith hclose
      | waiting hdeliverable =>
        intro hresult
        rw [hdeliverable] at hresult
        cases hresult
      | reissued hdeliverable => exact fun _ => hserved row.id row hrow hdeliverable
    · rintro new asked hasked hopen - request found ⟨⟩ hfound
      rw [hasked] at hfound
      cases hfound
      exact hopen
  cases hstep with
  | told hsame => rwa [TodoStore.RequestsServed, hsame.requests]
  | command _ _ _ _ _ _ hstored | merge _ _ _ _ hstored =>
    rwa [TodoStore.RequestsServed, hstored.requests]
  | create => exact hrows
  | @request request changed hstate =>
    intro problem row hrow hdeliverable linked asked hlinked hasked
    rcases Dict.get?_set_eq_some.mp hasked with ⟨heq, rfl⟩ | ⟨-, hasked⟩
    · subst heq
      obtain ⟨hopen, -⟩ | hserving := hstate
      · exact hopen
      · have hmem : row ∈ store.serving linked := by
          simp only [TodoStore.serving, List.mem_filter, decide_eq_true_eq]
          exact ⟨Dict.mem_values.mpr ⟨problem, hrow⟩, hlinked, hdeliverable⟩
        rw [hserving] at hmem
        cases hmem
    · exact hserved problem row hrow hdeliverable linked asked hlinked hasked

end Step

/-- After every run that takes no merge back under a completed request, no problem with an
order to deliver is linked to a completed request. -/
theorem completed_requests_are_served (ops : List StoreOp)
    (halong : Along (StoreOp.Meets UnmergesOpen) StoreOp.apply ops TodoWorld.empty)
    (problem : ProblemId) (row : Todo) (request : RequestId) (asked : OwnerRequest)
    (hrow : (run StoreOp.apply ops TodoWorld.empty).store.todos.get? problem = some row)
    (hlinked : row.request = some request) (hdeliverable : row.order.deliverable = true)
    (hasked : (run StoreOp.apply ops TodoWorld.empty).store.requests.get? request = some asked) :
    asked.state = .open := by
  have hserved := run_store_invariant TodoStore.RequestsServed
    (by simp [TodoStore.RequestsServed, TodoStore.empty])
    (fun _ _ hstep => hstep.requestsServed) quiet_unmergesOpen ops halong
  exact hserved problem row hrow hdeliverable request asked hlinked hasked

/-! ### A merge taken back after its request was completed -/

section TakenBack

def sampleLink : PullRequestLink := ⟨"repo", 7⟩

def linkedTodo : NewTodo where
  id := "P1"
  repo := "repo"
  text := "It does not work."
  creator := "lead"
  creatorCreated := 5
  creatorActing := lead
  assignment := sampleAssignment
  reviewAt := .recorded 200
  order := { sampleDeclaration with pullRequests := [sampleLink] }
  request := "request"

def mergedOps : List StoreOp :=
  [.addRequest "request" 5 "Make it work.", .create linkedTodo sampleReads, .readBoard,
   .recordMerges [⟨linkedTodo.row, .merged "abc" false⟩]]

def takeBack (cut : RegistrySnapshot) : StoreOp :=
  leadCommand cut 2 (.correctOrder lead "The merge was another order's."
    (.mergedLink ⟨sampleLink, "abc"⟩) (.recorded 40))

/-- Whether the order is to be delivered, the request it serves, and that request's state. -/
def requestView (ops : List StoreOp) : Option (Bool × Option RequestId × Option RequestState) :=
  let store := (run StoreOp.apply ops TodoWorld.empty).store
  (store.todos.get? "P1").map fun row =>
    (row.order.deliverable, row.request, (store.requests.get? "request").map OwnerRequest.state)

/-- The request is completed while the order is merged; then the merge is taken back. -/
theorem completed_request_gets_work :
    ∃ cut, RegistryDocument.empty.capture = .ok cut ∧
      requestView (mergedOps ++ [.completeRequest lead "request" "It was merged.", takeBack cut]) =
        some (true, some "request", some (.completed "It was merged.")) := by
  exact exists_ok_of_decide (by decide +kernel)

/-- Taken back while the request is open, the order is to be delivered for an open request,
and completing the request is refused. -/
theorem completed_requests_are_served_reopened :
    ∃ cut, RegistryDocument.empty.capture = .ok cut ∧ ∃ row asked,
      (run StoreOp.apply (mergedOps ++ [takeBack cut, .completeRequest lead "request" "Done."])
        TodoWorld.empty).store.todos.get? "P1" = some row ∧ row.order.deliverable = true ∧
      (run StoreOp.apply (mergedOps ++ [takeBack cut, .completeRequest lead "request" "Done."])
        TodoWorld.empty).store.requests.get? "request" = some asked ∧ asked.state = .open := by
  have hrun : ∃ cut, RegistryDocument.empty.capture = .ok cut ∧
      (requestView (mergedOps ++ [takeBack cut, .completeRequest lead "request" "Done."])).map
        (fun view => (view.1, view.2.1, view.2.2.isSome)) = some (true, some "request", true) :=
    exists_ok_of_decide (by decide +kernel)
  have hopen : ∀ asked ∈ (run StoreOp.apply mergedOps TodoWorld.empty).store.requests.values,
      asked.state = .open := by decide +kernel
  obtain ⟨cut, hcut, hview⟩ := hrun
  simp only [requestView, Option.map_map, Option.map_eq_some_iff, Function.comp_apply,
    Prod.mk.injEq, Option.isSome_map, Option.isSome_iff_exists] at hview
  obtain ⟨row, hrow, hdeliverable, hlinked, asked, hasked⟩ := hview
  refine ⟨cut, hcut, row, asked, hrow, hdeliverable, hasked,
    completed_requests_are_served _ ?_ "P1" row "request" asked hrow hlinked hdeliverable hasked⟩
  refine ⟨trivial, trivial, trivial, trivial, ⟨?_, fun _ _ => trivial⟩, trivial, trivial⟩
  exact fun _ _ _ found _ hfound => hopen found (Dict.mem_values.mpr ⟨_, hfound⟩)

end TakenBack

end AgentComms.Todos
