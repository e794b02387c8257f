import AgentComms.Todos.Commands

/-!
# What a Todo transaction does to a row

`RowStep` lists what a command can make of the row it is applied to, with the checks that
decide who may hold the problem, whether it closes and which order it carries. Every
property of the store is then read off these few cases.
-/

namespace AgentComms.Todos

open Library
open Registry (RegistrySnapshot ThreadStatus Environment)

def Todo.next (row : Todo) : Todo := { row with revision := row.revision + 1 }

def Todo.closedWith (row : Todo) (order : ProblemOrder) : Todo :=
  { row.next with state := .done, order := order, assignment := none }

theorem Todo.closed_eq_ok {row result : Todo} {order : ProblemOrder}
    (hok : row.closed order = .ok result) :
    order.requireClose = .ok () ∧ result = row.closedWith order := by
  simp only [Todo.closed, do_eq_ok] at hok
  obtain ⟨_, hclose, rfl⟩ := hok
  exact ⟨hclose, rfl⟩

inductive RowStep (store : TodoStore) (row : Todo) : TodoOperation → Todo → Prop
  | kept {op : TodoOperation} {order : ProblemOrder} {text : String}
      (hdeliverable : order.deliverable = row.order.deliverable)
      (hevidence : order.evidence? = row.order.evidence?) :
      RowStep store row op { row.next with order := order, text := text }
  | assigned {actor : Actor} {proposed assignment : Assignment} {reviewAt : EventTime}
      {sent : SentOrder} {request : RequestId} (hholder : assignment.holder = proposed.holder)
      (hstate : row.state = .open ∨ row.assignment = some assignment) :
      RowStep store row (.assign actor proposed reviewAt sent request)
        { row.next with assignment := some assignment, reviewAt := reviewAt,
                        order := sent.order, request := some request }
  | released {actor : Actor} {previous : Assignment} {reason : String} {releasedAt : EventTime}
      (hheld : row.assignment = some previous) :
      RowStep store row (.release actor previous reason releasedAt)
        { row.next with assignment := none }
  | restored {actor : Actor} {previous assignment : Assignment} (hopen : row.state ≠ .done)
      (hfree : row.assignment = none) :
      RowStep store row (.restoreHolder actor previous)
        { row.next with assignment := some assignment }
  | unmerged {actor : Actor} {reason : String} {previous : MergedLink} {correctedAt : EventTime}
      {declared : Declaration} (hopen : row.state ≠ .done) :
      RowStep store row (.correctOrder actor reason (.mergedLink previous) correctedAt)
        { row.next with order := .pending declared }
  | delivered {actor : Actor} {delivery : OrderDelivery} {orderId : OrderId}
      {order : ProblemOrder} (hopen : row.state ≠ .done) (hdeliverable : order.deliverable = false)
      (hevidence : order.evidence? = none ∨ order.evidence? = row.order.evidence?) :
      RowStep store row (.deliver actor delivery orderId) { row.next with order := order }
  | reported {actor : Actor} {delivery : OrderDelivery} {orderId : OrderId}
      {order : ProblemOrder} (hopen : row.state ≠ .done) (hclose : order.requireClose = .ok ()) :
      RowStep store row (.deliver actor delivery orderId) (row.closedWith order)
  | installed {actor : Actor} {works artifact : String} {order : ProblemOrder}
      (horder : row.order.install works artifact = .ok order)
      (hclose : order.requireClose = .ok ()) :
      RowStep store row (.install actor works artifact) (row.closedWith order)
  | withdrawn {actor : Actor} {why : String} {supersededBy : Option ProblemId}
      {previous : Assignment} {order : ProblemOrder}
      (hprevious : (row.holderState store).previousAssignment = .ok previous)
      (horder : row.order.withdraw previous why supersededBy = .ok order)
      (hclose : order.requireClose = .ok ()) :
      RowStep store row (.withdraw actor why supersededBy) (row.closedWith order)
  | finished {actor : Actor} {generation : Option GoalId} (hopen : row.state ≠ .done)
      (hclose : row.order.requireClose = .ok ()) :
      RowStep store row (.changeState .done actor generation) (row.closedWith row.order)
  | stateChanged {state : TodoState} {actor : Actor} {generation : Option GoalId}
      (hopen : row.state ≠ .done) (hstate : state ≠ .done) :
      RowStep store row (.changeState state actor generation) { row.next with state := state }
  | dropped {actor : Actor} {newer : ExpectedProblem} {message : MessageId}
      {declared : Declaration} :
      RowStep store row (.drop actor newer message)
        { row.next with assignment := none, order := .dropped declared message }
  | folded {actor : Actor} {into : ExpectedProblem} {why : String} :
      RowStep store row (.foldSource actor into why)
        { row.next with state := .done, assignment := none,
                        order := .folded row.order into.problem why "" }
  | linked {actor : Actor} {sent : Todo} {unit : String} {order : ProblemOrder}
      {held : Assignment} (hopen : row.state ≠ .done)
      (horder : row.order.linked sent.order = .ok order) (hheld : sent.assignment = some held) :
      RowStep store row (.link actor sent unit)
        { row.next with order := order, assignment := some held, request := sent.request,
                        reviewAt := sent.reviewAt }

namespace RowStep

variable {store : TodoStore} {row result : Todo} {op : TodoOperation}

theorem id_eq (hstep : RowStep store row op result) : result.id = row.id := by
  cases hstep <;> rfl

theorem revision_eq (hstep : RowStep store row op result) : result.revision = row.revision + 1 := by
  cases hstep <;> rfl

theorem raised : RowStep store row op row.next :=
  @RowStep.kept store row op row.order row.text rfl rfl

theorem reordered {order : ProblemOrder} (hdeliverable : order.deliverable = row.order.deliverable)
    (hevidence : order.evidence? = row.order.evidence?) :
    RowStep store row op { row.next with order := order } :=
  @RowStep.kept store row op order row.text hdeliverable hevidence

end RowStep

/-! ### The orders the steps leave -/

namespace ProblemOrder

variable {order result : ProblemOrder}

theorem kept_of_forPhase {phase : String} (hok : order.forPhase phase = .ok result) :
    result.deliverable = order.deliverable ∧ result.evidence? = order.evidence? := by
  simp only [forPhase, do_eq_ok] at hok
  obtain ⟨declared, -, rfl⟩ := hok
  exact ⟨by simp, by simp⟩

theorem kept_of_claim {claim : OrderClaim} (hok : order.claim claim = .ok result) :
    result.deliverable = order.deliverable ∧ result.evidence? = order.evidence? := by
  cases order with
  | pending =>
    cases hok
    exact ⟨rfl, rfl⟩
  | _ => cases hok

/-- A correction keeps the kind of the order unless it takes a merge back. -/
theorem corrected_cases {correction : Correction} (hok : order.corrected correction = .ok result) :
    (result.deliverable = order.deliverable ∧ result.evidence? = order.evidence?) ∨
      ∃ previous declared, correction.part = .mergedLink previous ∧
        result = .pending declared := by
  simp only [corrected, do_eq_ok, Prod.exists] at hok
  obtain ⟨declared, -, _, -, replaced, changed, hpart, rfl⟩ := hok
  cases hkind : correction.part <;> simp only [hkind, replacePart, do_eq_ok] at hpart
  case check | run =>
    obtain ⟨_, -, rfl, -⟩ := hpart
    exact .inl ⟨by simp, by simp⟩
  case mergedLink previous =>
    obtain ⟨_, -, unlinked, -, _, -, rfl, -⟩ := hpart
    exact .inr ⟨previous, _, rfl, rfl⟩
  case link =>
    obtain ⟨_, -, _, -, _, -, rfl, -⟩ := hpart
    exact .inl ⟨by simp, by simp⟩

theorem deliver_kept {delivery : OrderDelivery} (hok : order.deliver delivery = .ok result)
    : result.deliverable = false ∧
      (result.evidence? = none ∨ result.evidence? = order.evidence?) := by
  cases order <;> simp only [deliver, do_eq_ok] at hok
  case delivered | reported | installed =>
    obtain ⟨_, -, rfl⟩ := hok
    exact ⟨rfl, .inr rfl⟩
  all_goals
    obtain ⟨_, -, _, -, rfl⟩ := hok
    exact ⟨rfl, .inl rfl⟩

theorem fold_eq_ok {into : ProblemId} {why : String} (hok : order.fold into why = .ok result)
    : result = .folded order into why "" := by
  cases order with
  | pending => cases hok
  | _ =>
    cases hok
    rfl

end ProblemOrder

/-! ### Strikes and verdicts -/

/-- A strike raises the revision, or repeats a recorded one and does nothing. -/
theorem Strike.changed_cases {strike : Strike} {store : TodoStore} {reads : Reads}
    {actor : Actor} {row result : Todo} (hok : strike.changed store reads actor row = .ok result) :
    result = row ∨ ∃ order : ProblemOrder, order.deliverable = row.order.deliverable ∧
      order.evidence? = row.order.evidence? ∧ result = { row.next with order := order } := by
  simp only [Strike.changed, do_eq_ok] at hok
  obtain ⟨_, -, _, -, _, -, _, -, hok⟩ := hok
  split at hok
  · exact .inl (pure_eq_ok.mp hok).symm
  · refine .inr ?_
    split at hok
    · simp only [do_eq_ok] at hok
      obtain ⟨_, -, rfl⟩ := hok
      exact ⟨_, by simp, by simp, rfl⟩
    · rw [pure_eq_ok] at hok
      exact ⟨row.order, rfl, rfl, hok.symm⟩

namespace TodoCommand

variable {store : TodoStore} {reads : Reads} {row result : Todo} {actor : Actor}

theorem step_of_judged {previous : Assignment} {strike? : Option Strike} (op : TodoOperation)
    (hok : judged store reads actor previous strike? row = .ok result) :
    RowStep store row op result := by
  simp only [judged, do_eq_ok] at hok
  obtain ⟨_, -, judged, hjudged, rfl⟩ := hok
  cases strike? with
  | none =>
    simp only [verdictRow, do_eq_ok] at hjudged
    obtain ⟨_, -, rfl⟩ := hjudged
    exact .raised
  | some =>
    obtain rfl | ⟨order, hdeliverable, hevidence, rfl⟩ := Strike.changed_cases hjudged
    · exact .raised
    · exact .reordered hdeliverable hevidence

theorem step_of_headJudged {review : HeadReview} {judged : Todo} (op : TodoOperation)
    (hok : headJudged store reads actor review row = .ok judged) :
    RowStep store row op { judged with revision := row.revision + 1 } := by
  simp only [headJudged] at hok
  split at hok
  · obtain rfl | ⟨order, hdeliverable, hevidence, rfl⟩ := Strike.changed_cases hok
    · exact .raised
    · exact .reordered hdeliverable hevidence
  · split at hok
    · simp only [do_eq_ok] at hok
      obtain ⟨_, -, rfl⟩ := hok
      exact .reordered (by simp) (by simp)
    · cases hok
      exact .raised

theorem step_of_decided {state : TodoState} {generation : Option GoalId} (hopen : row.state ≠ .done)
    (hok : decided row state actor generation = .ok result) :
    result = row ∨ RowStep store row (.changeState state actor generation) result := by
  cases state with
  | done =>
    simp only [decided, bind_eq_ok] at hok
    obtain ⟨_, -, hclosed⟩ := hok
    obtain ⟨hclose, rfl⟩ := Todo.closed_eq_ok hclosed
    exact .inr (.finished hopen hclose)
  | «open» | blocked =>
    simp only [decided, bind_eq_ok] at hok
    obtain ⟨_, -, hok⟩ := hok
    split at hok <;> rw [pure_eq_ok] at hok
    · exact .inl hok.symm
    · exact .inr (hok ▸ .stateChanged hopen (by decide))

theorem holder_proposedAssignment (holder : Holder) (proposed : Assignment) :
    (holder.proposedAssignment proposed).holder = proposed.holder := by
  cases holder <;> rfl

theorem step_of_assigned {proposed : Assignment} {reviewAt : EventTime} {order : SentOrder}
    {request : RequestId}
    (hok : assigned store reads actor ((row.holderState store).proposedAssignment proposed)
      reviewAt order request row = .ok result) :
    RowStep store row (.assign actor proposed reviewAt order request) result := by
  simp only [assigned, do_eq_ok] at hok
  obtain ⟨_, -, _, -, received, hassignment, rfl⟩ := hok
  rw [assignment] at hassignment
  split at hassignment
  next hsame =>
    cases hassignment
    exact .assigned (holder_proposedAssignment _ _) (.inr hsame)
  · simp only [do_eq_ok] at hassignment
    obtain ⟨_, hopen, _, -, _, -, hsuccessor⟩ := hassignment
    refine .assigned (Eq.trans ?_ (holder_proposedAssignment (row.holderState store) _)) (.inl hopen)
    revert hsuccessor
    generalize Holder.proposedAssignment proposed (row.holderState store) = placed
    intro hsuccessor
    cases hholder : row.holderState store <;> rw [hholder] at hsuccessor
    case assigned =>
      simp only [Holder.successor] at hsuccessor
      split at hsuccessor <;> cases hsuccessor
      rfl
    all_goals cases hsuccessor; rfl

/-- Everything a command computes: the row itself, or one of the listed steps. -/
theorem apply_cases {command : TodoCommand} (hok : command.apply store reads row = .ok result) :
    result = row ∨ RowStep store row command.operation result := by
  obtain ⟨revision, op⟩ := command
  cases op <;> simp only [apply, do_eq_ok, Todo.requireOpen, Todo.requireAssignment] at hok
  case assign =>
    obtain ⟨_, -, hok⟩ := hok
    split at hok
    · exact .inl (pure_eq_ok.mp hok).symm
    · rw [bind_eq_ok] at hok
      obtain ⟨_, -, hok⟩ := hok
      exact .inr (step_of_assigned hok)
  case strike =>
    obtain ⟨_, -, hok⟩ := hok
    obtain rfl | ⟨order, hdeliverable, hevidence, rfl⟩ := Strike.changed_cases hok
    · exact .inl rfl
    · exact .inr (.reordered hdeliverable hevidence)
  case verdict =>
    obtain ⟨_, -, _, -, _, -, _, -, hok⟩ := hok
    exact .inr (step_of_judged _ hok)
  case voidStrike =>
    obtain ⟨_, -, _, -, _, -, _, -, _, -, rfl⟩ := hok
    exact .inr .raised
  case release =>
    obtain ⟨_, -, _, hheld, rfl⟩ := hok
    exact .inr (.released hheld)
  case restoreHolder =>
    obtain ⟨_, -, _, -, _, hopen, _, -, hok⟩ := hok
    split at hok
    next release hholder =>
      rw [pure_eq_ok] at hok
      subst hok
      refine .inr (.restored hopen ?_)
      cases hassigned : row.assignment with
      | none => rfl
      | some => simp [Todo.holderState, hassigned] at hholder
    · exact .inl (pure_eq_ok.mp hok).symm
  case correctOrder =>
    obtain ⟨_, -, _, -, _, hopen, _, -, _, -, order, horder, rfl⟩ := hok
    obtain ⟨hdeliverable, hevidence⟩ | ⟨previous, declared, hpart, rfl⟩ :=
      ProblemOrder.corrected_cases horder
    · exact .inr (.reordered hdeliverable hevidence)
    · simp only at hpart
      subst hpart
      exact .inr (.unmerged hopen)
  case wordingCorrection =>
    obtain ⟨_, -, rfl⟩ := hok
    exact .inr .raised
  case orderMessage =>
    obtain ⟨_, -, _, -, rfl⟩ := hok
    exact .inr .raised
  case recordPullRequest =>
    obtain ⟨_, -, _, -, declared, -, hok⟩ := hok
    split at hok
    · exact .inl (pure_eq_ok.mp hok).symm
    · simp only [do_eq_ok] at hok
      obtain ⟨_, -, _, -, rfl⟩ := hok
      exact .inr (.reordered (by simp) (by simp))
  case serve =>
    obtain ⟨_, -, _, -, order, horder, rfl⟩ := hok
    obtain ⟨hdeliverable, hevidence⟩ := ProblemOrder.kept_of_forPhase horder
    exact .inr (.reordered hdeliverable hevidence)
  case claimOrder =>
    obtain ⟨_, -, _, -, _, -, order, horder, rfl⟩ := hok
    obtain ⟨hdeliverable, hevidence⟩ := ProblemOrder.kept_of_claim horder
    exact .inr (.reordered hdeliverable hevidence)
  case resumeClaim =>
    obtain ⟨_, -, _, -, _, -, _, -, rfl⟩ := hok
    exact .inl rfl
  case deliver =>
    obtain ⟨_, -, _, -, _, hopen, _, -, _, -, declared, -, hok⟩ := hok
    split at hok
    · obtain ⟨hclose, rfl⟩ := Todo.closed_eq_ok hok
      exact .inr (.reported hopen hclose)
    · simp only [do_eq_ok] at hok
      obtain ⟨order, horder, rfl⟩ := hok
      obtain ⟨hdeliverable, hevidence⟩ := ProblemOrder.deliver_kept horder
      exact .inr (.delivered hopen hdeliverable hevidence)
  case install =>
    obtain ⟨_, -, _, -, _, -, order, horder, hok⟩ := hok
    obtain ⟨hclose, rfl⟩ := Todo.closed_eq_ok hok
    exact .inr (.installed horder hclose)
  case withdraw =>
    obtain ⟨_, -, _, -, previous, hprevious, order, horder, _, -, hok⟩ := hok
    obtain ⟨hclose, rfl⟩ := Todo.closed_eq_ok hok
    exact .inr (.withdrawn hprevious horder hclose)
  case changeState =>
    obtain ⟨_, -, _, hopen, hok⟩ := hok
    exact step_of_decided hopen hok
  case headVerdict =>
    obtain ⟨_, -, _, -, judged, hjudged, rfl⟩ := hok
    exact .inr (step_of_headJudged _ hjudged)
  case drop =>
    obtain ⟨_, -, declared, -, rfl⟩ := hok
    exact .inr .dropped
  case foldSource =>
    obtain ⟨_, -, order, horder, rfl⟩ := hok
    rw [ProblemOrder.fold_eq_ok horder]
    exact .inr .folded
  case foldTarget =>
    obtain ⟨_, -, rfl⟩ := hok
    exact .inr (@RowStep.kept store row _ row.order _ rfl rfl)
  case link =>
    obtain ⟨_, -, _, hopen, _, -, order, horder, held, hheld, rfl⟩ := hok
    exact .inr (.linked hopen horder hheld)

end TodoCommand

end AgentComms.Todos
