import AgentComms.Registry.Document
import AgentComms.Todos.Orders

/-!
# Todo commands and their store

A problem is one row of the Todo store with its append-only story (`todos.py`). A command
is computed from the row read inside its transaction, checked against related rows and the
registry cut the transaction holds, and then written: the order it leaves is archived, its
story events are appended and the row is replaced. A batch writes several commands in one
transaction. Merges are different: their results are computed outside any transaction from
rows a board read returned earlier, and are stored only at the revision they were observed.

What a command reads outside the store is in `Reads`: the process table behind thread
statuses, the clock, a minted order id, and the verdicts of checks on prose, files, forge
links, work places and the receiver's goal. The checks an assignment makes before its
transaction can only refuse it, so they are left out. `TodoStore.writes` is a history no
operation reads.
-/

namespace AgentComms.Todos

open Library
open Registry (RegistrySnapshot ThreadStatus Environment)

/-! ### Rows -/

inductive TodoState where
  | «open»
  | blocked
  | done
deriving DecidableEq, Repr

structure Todo where
  id : ProblemId
  repo : String
  text : String
  creator : String
  creatorCreated : Nat
  state : TodoState
  revision : Nat
  request : Option RequestId
  assignment : Option Assignment
  order : ProblemOrder
  reviewAt : EventTime
deriving DecidableEq

inductive StrikeKind where
  | plain
  | sendBack
  | failedCheck (orderId : OrderId)
deriving DecidableEq, Repr

structure Strike where
  kind : StrikeKind
  expectedRevision : Nat
  actor : Identity
  previous : Assignment
  reason : String
  struckAt : EventTime
  evidence : List String
deriving DecidableEq, Repr

inductive Judgement where
  | accepted (quote : String)
  | peerAccepted (quote : String) (peer : MessageId)
  | superseded (replacement reason : String)
  | waived
  | rewritten (path : String) (added : List String) (commit reason : String)
  | dropped (path : String) (added : List String)
  | sendBack (reason : String) (evidence : List String)
  | editSendBack (reason : String) (evidence : List String) (path : String)
deriving DecidableEq, Repr

structure ToolCallVerdict where
  expectedRevision : Nat
  actor : Identity
  previous : Assignment
  toolCall : ToolCallId
  judgement : Judgement
  judgedAt : EventTime
deriving DecidableEq, Repr

structure Release where
  expectedRevision : Nat
  actor : Identity
  previous : Assignment
  reason : String
  releasedAt : EventTime
deriving DecidableEq, Repr

inductive StoryEvent where
  | strike (strike : Strike)
  | verdict (verdict : ToolCallVerdict)
  | voided (expectedRevision : Nat) (actor : Identity) (strike : Strike) (reason : String)
      (voidedAt : EventTime)
  | release (release : Release)
  | wording (expectedRevision : Nat) (message : MessageId) (words : List String)
      (correctedAt : EventTime)
  | message (expectedRevision : Nat) (actor : Identity) (message : MessageId)
      (sentAt : EventTime)
  | order (order : ProblemOrder)
deriving DecidableEq

structure StoryRow where
  seq : Nat
  problem : ProblemId
  event : StoryEvent
  voids : Option Nat
deriving DecidableEq

/-! ### Commands -/

structure Reads where
  env : Environment
  now : Int
  minted : OrderId
  /-- The checks of prose, quotes and check commands accept the command's texts. -/
  wording : Bool
  /-- The named artifact file exists. -/
  artifact : Bool
  /-- The receiver's work state and goal take the work. -/
  receiving : Bool
  /-- The receiver is free and its work places are not shared. -/
  available : Bool
  /-- The change of owner is traced to a source line where one is owed. -/
  traced : Bool
  /-- The repository is one of the team's project. -/
  registered : Bool

/-- The order an assignment carries: pending, or a member of the merged family. -/
inductive SentOrder where
  | pending (declared : Declaration)
  | merged (declared : Declaration) (sha : String)
  | installedMerged (declared : Declaration) (sha : String) (evidence : InstalledEvidence)
deriving DecidableEq

def SentOrder.order : SentOrder → ProblemOrder
  | .pending declared => .pending declared
  | .merged declared sha => .merged declared sha
  | .installedMerged declared sha evidence => .installedMerged declared sha evidence

structure ExpectedProblem where
  problem : ProblemId
  expectedRevision : Nat
deriving DecidableEq, Repr

inductive TodoOperation where
  | assign (actor : Actor) (proposed : Assignment) (reviewAt : EventTime) (order : SentOrder)
      (request : RequestId)
  | strike (actor : Actor) (kind : StrikeKind) (previous : Assignment) (reason : String)
      (struckAt : EventTime) (evidence : List String)
  | verdict (actor : Actor) (previous : Assignment) (toolCall : ToolCallId)
      (judgement : Judgement) (judgedAt : EventTime)
  | voidStrike (actor : Actor) (strike : Strike) (reason : String) (voidedAt : EventTime)
  | release (actor : Actor) (previous : Assignment) (reason : String) (releasedAt : EventTime)
  | restoreHolder (actor : Actor) (previous : Assignment)
  | correctOrder (actor : Actor) (reason : String) (part : CorrectedPart)
      (correctedAt : EventTime)
  | wordingCorrection (message : MessageId) (words : List String) (correctedAt : EventTime)
  | orderMessage (actor : Actor) (message : MessageId) (sentAt : EventTime)
  | recordPullRequest (actor : Actor) (link : PullRequestLink) (generation : GoalId)
  | serve (actor : Actor) (phase : String)
  | claimOrder (actor : Actor) (generation : GoalId) (claim : OrderClaim)
  | resumeClaim (actor : Actor) (generation : GoalId) (claim : OrderClaim)
  | deliver (actor : Actor) (delivery : OrderDelivery) (orderId : OrderId)
  | install (actor : Actor) (works artifact : String)
  | withdraw (actor : Actor) (why : String) (supersededBy : Option ProblemId)
  | changeState (state : TodoState) (actor : Actor) (generation : Option GoalId)
  | headVerdict (actor : Actor) (review : HeadReview)
  | drop (actor : Actor) (newer : ExpectedProblem) (replacingMessage : MessageId)
  | foldSource (actor : Actor) (into : ExpectedProblem) (why : String)
  | foldTarget (actor : Actor) (source : ProblemId) (sourceText : String)
  | link (actor : Actor) (sent : Todo) (unit : String)

structure TodoCommand where
  expectedRevision : Nat
  operation : TodoOperation

/-- What a forge read found for one board row. -/
inductive MergeObservation where
  | merged (sha : String) (installed : Bool)
  | requestClosed (minted : OrderId) (now : Int)
deriving DecidableEq, Repr

/-! ### The store -/

inductive RequestState where
  | «open»
  | completed (reason : String)
deriving DecidableEq, Repr

structure OwnerRequest where
  id : RequestId
  teammate : Nat
  text : String
  state : RequestState
  directives : List Nat
deriving DecidableEq, Repr

inductive Origin where
  | creation
  | command (cut : RegistrySnapshot) (reads : Reads) (command : TodoCommand)
  | merge (observed : MergeObservation)

/-- One stored row: the row it was computed from, the row it replaced and the row stored. -/
structure Write where
  origin : Origin
  basis : Option Todo
  before : Option Todo
  after : Todo

structure TodoStore where
  todos : Dict ProblemId Todo
  story : List StoryRow
  requests : Dict RequestId OwnerRequest
  headReviews : List HeadReview
  writes : List Write

namespace TodoStore

def empty : TodoStore := ⟨Dict.empty, [], Dict.empty, [], []⟩

variable (store : TodoStore)

def events (problem : ProblemId) : List StoryEvent :=
  (store.story.filter (·.problem = problem)).map StoryRow.event

def voided (seq : Nat) : Bool :=
  store.story.any fun row => row.voids = some seq

def liveStrikes (problem : ProblemId) : List Strike :=
  (store.story.filter fun row => row.problem = problem ∧ store.voided row.seq = false).reverse.filterMap
    fun row => match row.event with
      | .strike strike => some strike
      | _ => none

def failedChecks (problem : ProblemId) : List Strike :=
  (store.events problem).filterMap fun event => match event with
    | .strike strike => match strike.kind with
        | .failedCheck _ => some strike
        | _ => none
    | _ => none

def judgedCalls (problem : ProblemId) : List ToolCallId :=
  (store.events problem).filterMap fun event => match event with
    | .verdict verdict => some verdict.toolCall
    | _ => none

def releases (problem : ProblemId) : List Release :=
  (store.events problem).filterMap fun event => match event with
    | .release release => some release
    | _ => none

def current (problem : ProblemId) : Checked Todo :=
  orRefuse (store.todos.get? problem) (.todo ("Unknown todo: " ++ problem ++ "."))

def strikeSeq (problem : ProblemId) (strike : Strike) : Option Nat :=
  (store.story.reverse.find? fun row =>
    row.problem = problem ∧ row.event = .strike strike).map StoryRow.seq

def append (problem : ProblemId) (event : StoryEvent) : Checked TodoStore :=
  let row (voids : Option Nat) : TodoStore :=
    { store with story := store.story ++ [⟨store.story.length + 1, problem, event, voids⟩] }
  match event with
  | .voided _ _ strike _ _ => do
      let seq ← orRefuse (store.strikeSeq problem strike)
        (.todo (problem ++ ": the strike being voided has no stored event."))
      pure (row (some seq))
  | _ => .ok (row none)

/-- Declarations that leave the row are kept by their id. -/
def archive (row : Todo) (following : ProblemOrder) : Checked TodoStore :=
  let ids (orders : List ProblemOrder) : List OrderId :=
    orders.filterMap fun order => order.declared?.map Declaration.id
  row.order.declarations.foldlM (fun store order =>
    let stored := ids ((store.events row.id).filterMap fun event => match event with
      | .order order => some order
      | _ => none)
    if (ids [order]).all (fun id => id ∈ ids following.declarations ∨ id ∈ stored) then .ok store
    else store.append row.id (.order order)) store

def upsert (origin : Origin) (basis : Option Todo) (row : Todo) : TodoStore :=
  { store with
    todos := store.todos.set row.id row
    writes := store.writes ++ [⟨origin, basis, store.todos.get? row.id, row⟩] }

def request (store : TodoStore) (request : RequestId) : Checked OwnerRequest :=
  orRefuse (store.requests.get? request) (.todo ("Unknown request: " ++ request ++ "."))

/-- The rows that still have a pending order or an unaccepted claim for a request. -/
def serving (request : RequestId) : List Todo :=
  store.todos.values.filter fun row => row.request = some request ∧ row.order.deliverable = true

def heldIn (unit : Nat) : List Todo :=
  store.todos.values.filter fun row =>
    row.state ≠ .done ∧ row.assignment.map Assignment.ownerCreated = some unit

end TodoStore

def OwnerRequest.requireOpen (request : OwnerRequest) (actor : Actor) : Checked Unit := do
  require (actor.actsFor (.recorded request.teammate) = true)
    (.foreignRequest ("Request " ++ request.id ++ " is outside this actor's work scope."))
  require (request.state = .open)
    (.valueError ("Request " ++ request.id ++ " is already completed."))

/-! ### Holders -/

/-- The holder state a reassignment consults: the row's assignment or the last release. -/
inductive Holder where
  | assigned (assignment : Assignment)
  | released (release : Release)
  | unheld
deriving DecidableEq

namespace Holder

def previousAssignment : Holder → Checked Assignment
  | .assigned assignment => .ok assignment
  | .released release => .ok release.previous
  | .unheld => .error (.todo "Problem has no previous holder.")

def proposedAssignment (proposed : Assignment) : Holder → Assignment
  | .assigned assignment => { proposed with previousOwners := assignment.previousOwners }
  | .released release => release.previous.handedTo proposed
  | .unheld => proposed

def successor (problem : ProblemId) (proposed : Assignment) : Holder → Checked Assignment
  | .assigned assignment =>
    if assignment.generation = proposed.generation ∧
        assignment.ownerCreated ≠ proposed.ownerCreated then .error (.conflict problem)
    else .ok (assignment.handedTo proposed)
  | _ => .ok proposed

end Holder

namespace Todo

variable (row : Todo)

def holderState (store : TodoStore) : Holder :=
  match row.assignment with
  | some assignment => .assigned assignment
  | none => match (store.releases row.id).getLast? with
      | some release => .released release
      | none => .unheld

def holder (row : Todo) : Option (Nat × GoalId) := row.assignment.map Assignment.holder

def requireRevision (expected : Nat) : Checked Unit :=
  require (row.revision = expected) (.conflict row.id)

def requireAssignment (expected : Assignment) : Checked Unit :=
  require (row.assignment = some expected) (.conflict row.id)

def requirePreviousAssignment (store : TodoStore) (expected : Assignment) : Checked Unit := do
  let previous ← (row.holderState store).previousAssignment
  require (previous = expected) (.conflict row.id)

def requireOpen : Checked Unit :=
  require (row.state ≠ .done)
    (.todo (row.id ++ " is done; a strike or hunt is recorded on an open problem."))

def requireMaintainer (actor : Actor) : Checked Unit :=
  require (actor.actsFor (.recorded row.creatorCreated) = true ∨
      ∃ assignment ∈ row.assignment, actor.represents assignment.ownerIdentity = true)
    (.notWorkMaintainer (actor.name ++ " cannot maintain " ++ row.id ++
      "; use an independent colleague or the current holder's bound caller."))

def requireAssignee (actor : Actor) (generation : Option GoalId) : Checked Unit :=
  require (∃ assignment ∈ row.assignment, assignment.ownerIdentity = actor.identity ∧
      generation = some assignment.generation) (.conflict row.id)

def requireActor (actor : Actor) (generation : Option GoalId) : Checked Unit :=
  if actor.actsFor (.recorded row.creatorCreated) then .ok ()
  else row.requireAssignee actor generation

def closed (order : ProblemOrder) : Checked Todo := do
  order.requireClose
  pure { row with state := .done, order := order, assignment := none,
                  revision := row.revision + 1 }

end Todo

/-- The statuses of a holder that can never answer. -/
def orphansHolds : ThreadStatus → Bool
  | .stopped | .archived => true
  | _ => false

/-- A registered holder whose status owes consent gives it. -/
def requireRelease (cut : RegistrySnapshot) (env : Environment) (actor : Actor) (row : Todo) :
    Checked Unit :=
  match row.assignment with
  | none => .ok ()
  | some assignment =>
    (cut.threadsFor assignment.owner assignment.ownerCreated).forM fun holder => do
      let status ← (cut.status env holder.name).mapError fun _ => .refusedRead "status"
      require (orphansHolds status = true ∨ actor.represents assignment.ownerIdentity = true)
        (.consentRequired (row.id ++ " is held by " ++ assignment.owner ++ " under goal " ++
          assignment.generation ++ "; " ++ actor.name ++
          " cannot release or replace that assignment without its holder."))

/-! ### What a command computes -/

/-- `_text`. -/
def requireText (value label : String) (limit : Nat) : Checked Unit :=
  require (blank value = false ∧ value.length ≤ limit)
    (.todo (label ++ " must be nonempty and at most " ++ toString limit ++ " characters."))

/-! #### Strikes -/

namespace Strike

def repeats (strike recorded : Strike) : Bool :=
  match strike.kind, recorded.kind with
  | .plain, _ => false
  | .sendBack, _ => recorded.previous.ownerCreated = strike.previous.ownerCreated ∧
      recorded.struckAt = strike.struckAt
  | .failedCheck order, .failedCheck other =>
    other = order ∧ recorded.previous.ownerCreated = strike.previous.ownerCreated
  | .failedCheck _, _ => false

def prior (strike : Strike) (store : TodoStore) (problem : ProblemId) : List Strike :=
  match strike.kind with
  | .plain => []
  | .sendBack => store.liveStrikes problem
  | .failedCheck _ => store.failedChecks problem

/-- A strike that repeats a recorded one records nothing. -/
def historyEvents (strike : Strike) (store : TodoStore) (problem : ProblemId) : List StoryEvent :=
  if (strike.prior store problem).any strike.repeats then [] else [.strike strike]

/-- A send-back also reissues the order. -/
def changed (strike : Strike) (store : TodoStore) (reads : Reads) (actor : Actor) (row : Todo) :
    Checked Todo := do
  row.requireMaintainer actor
  row.requirePreviousAssignment store strike.previous
  requireText strike.reason "Strike reason" 2000
  require (reads.wording = true) (.refusedRead "StrikeReason")
  if (strike.historyEvents store row.id).isEmpty then pure row
  else match strike.kind with
    | .sendBack => do
        let _ ← row.order.checked
        pure { row with order := row.order.sentBack strike.reason reads.minted reads.now,
                        revision := row.revision + 1 }
    | _ => pure { row with revision := row.revision + 1 }

end Strike

def Judgement.strike? (judgement : Judgement) (revision : Nat) (actor : Identity)
    (previous : Assignment) (judgedAt : EventTime) : Option Strike :=
  match judgement with
  | .sendBack reason evidence | .editSendBack reason evidence _ =>
    some ⟨.sendBack, revision, actor, previous, reason, judgedAt, evidence⟩
  | _ => none

def HeadReview.strike? (review : HeadReview) (revision : Nat) : Option Strike :=
  match review.verdict with
  | .rejected reason => some ⟨.sendBack, revision, review.actor, review.previous, reason,
      review.reviewedAt, review.evidence⟩
  | _ => none

def HeadReview.by (review : HeadReview) (actor : Actor) : HeadReview :=
  { review with actor := actor.identity }

namespace TodoCommand

/-- An assignment moves the hold unless its receiver holds the problem under that goal. -/
def movesHold (row : Todo) (proposed : Assignment) : Bool := row.holder ≠ some proposed.holder

def assignment (store : TodoStore) (reads : Reads) (proposed : Assignment) (row : Todo) :
    Checked Assignment :=
  if row.assignment = some proposed then .ok proposed
  else do
    require (row.state = .open) (.conflict row.id)
    row.order.requireReassignment (row.holderState store).previousAssignment proposed
    require (reads.traced = true) (.refusedRead "traced")
    (row.holderState store).successor row.id proposed

def assigned (store : TodoStore) (reads : Reads) (actor : Actor) (proposed : Assignment)
    (reviewAt : EventTime) (order : SentOrder) (request : RequestId) (row : Todo) :
    Checked Todo := do
  row.requireMaintainer actor
  require (order.order = row.order ∨ reads.wording = true) (.refusedRead "order wording")
  let assignment ← assignment store reads proposed row
  pure { row with assignment := some assignment, reviewAt := reviewAt, order := order.order,
                  request := some request, revision := row.revision + 1 }

/-- `OrderVerdict.judged`: only a send-back strikes and reissues. -/
def verdictRow (store : TodoStore) (reads : Reads) (actor : Actor) (row : Todo) :
    Option Strike → Checked Todo
  | some strike => strike.changed store reads actor row
  | none => do
      require (reads.wording = true) (.refusedRead "quote")
      pure row

def judged (store : TodoStore) (reads : Reads) (actor : Actor) (previous : Assignment)
    (strike? : Option Strike) (row : Todo) : Checked Todo := do
  row.requireAssignment previous
  let judged ← verdictRow store reads actor row strike?
  pure { judged with revision := row.revision + 1 }

def decided (row : Todo) (state : TodoState) (actor : Actor) (generation : Option GoalId) :
    Checked Todo :=
  match state with
  | .done => do
      row.requireMaintainer actor
      row.closed row.order
  | _ => do
      row.requireActor actor generation
      if state = row.state then pure row
      else pure { row with state := state, revision := row.revision + 1 }

def headJudged (store : TodoStore) (reads : Reads) (actor : Actor) (review : HeadReview)
    (row : Todo) : Checked Todo :=
  match review.strike? row.revision with
  | some strike => strike.changed store reads actor row
  | none => match review.verdict with
    | .underReview => do
        let _ ← row.order.checked
        pure { row with order := row.order.underReview review }
    | _ => .ok row

def requireLink (store : TodoStore) (review : HeadReview) (row : Todo) : Checked Unit := do
  row.requirePreviousAssignment store review.previous
  let declared ← row.order.checked
  require (row.id = review.problem ∧ declared.id = review.orderId) (.conflict row.id)

variable (command : TodoCommand)

def apply (store : TodoStore) (reads : Reads) (row : Todo) : Checked Todo :=
  let next : Todo := { row with revision := row.revision + 1 }
  match command.operation with
  | .assign actor proposed reviewAt order request => do
      reviewAt.requireRecorded "A review time"
      let proposed := (row.holderState store).proposedAssignment proposed
      if row.assignment = some proposed ∧ row.reviewAt = reviewAt ∧ row.order = order.order ∧
          row.request = some request then pure row
      else do
        row.requireRevision command.expectedRevision
        assigned store reads actor proposed reviewAt order request row
  | .strike actor kind previous reason struckAt evidence => do
      row.requireRevision command.expectedRevision
      (Strike.mk kind command.expectedRevision actor.identity previous reason struckAt
        evidence).changed store reads actor row
  | .verdict actor previous toolCall judgement judgedAt => do
      row.requireMaintainer actor
      require (toolCall ∉ store.judgedCalls row.id)
        (.todo ("Tool call " ++ toolCall ++ " already has a verdict on " ++ row.id ++ "."))
      judgedAt.requireRecorded "A verdict"
      row.requireRevision command.expectedRevision
      judged store reads actor previous
        (judgement.strike? row.revision actor.identity previous judgedAt) row
  | .voidStrike actor strike reason _ => do
      row.requireRevision command.expectedRevision
      row.requireMaintainer actor
      require (strike ∈ store.liveStrikes row.id) (.conflict row.id)
      requireText reason "Void reason" 2000
      require (reads.wording = true) (.refusedRead "StrikeReason")
      pure next
  | .release _ previous _ _ => do
      row.requireRevision command.expectedRevision
      row.requireAssignment previous
      pure { next with assignment := none }
  | .restoreHolder actor previous => do
      row.requireRevision command.expectedRevision
      row.requireMaintainer actor
      row.requireOpen
      row.requirePreviousAssignment store previous
      match row.holderState store with
      | .released release => pure { next with assignment := some release.previous }
      | _ => pure row
  | .correctOrder actor reason part correctedAt => do
      row.requireRevision command.expectedRevision
      row.requireMaintainer actor
      row.requireOpen
      requireText reason "Correction reason" 2000
      require (reads.wording = true) (.refusedRead "check")
      let order ← row.order.corrected
        ⟨command.expectedRevision, actor.identity, reason, part, correctedAt⟩
      pure { next with order := order }
  | .wordingCorrection _ _ _ => do
      row.requireRevision command.expectedRevision
      pure next
  | .orderMessage actor _ _ => do
      row.requireRevision command.expectedRevision
      row.requireMaintainer actor
      pure next
  | .recordPullRequest actor link generation => do
      row.requireRevision command.expectedRevision
      row.requireActor actor (some generation)
      let declared ← row.order.checked
      if link ∈ declared.pullRequests then pure row
      else do
        row.order.requireLinkable
        row.requireOpen
        let linked := { declared with pullRequests := declared.pullRequests ++ [link] }
        pure { next with order := row.order.withDeclared linked }
  | .serve actor phase => do
      row.requireRevision command.expectedRevision
      row.requireMaintainer actor
      let order ← row.order.forPhase phase
      pure { next with order := order }
  | .claimOrder actor generation claim => do
      row.requireRevision command.expectedRevision
      row.requireOpen
      row.requireAssignee actor (some generation)
      let order ← row.order.claim claim
      pure { next with order := order }
  | .resumeClaim actor generation claim => do
      row.requireRevision command.expectedRevision
      row.requireOpen
      row.requireAssignee actor (some generation)
      require (claim ∈ row.order.teamClaims)
        (.todo (row.id ++ " does not hold the claim of " ++ claim.head ++ " (message " ++
          claim.messageId ++ "); nothing is published."))
      pure row
  | .deliver actor delivery orderId => do
      row.requireRevision command.expectedRevision
      row.requireMaintainer actor
      row.requireOpen
      row.order.requireDelivery orderId
      delivery.deliveredAt.requireRecorded "A delivery"
      let declared ← row.order.checked
      match declared.scope with
      | .triage => row.closed (.reported declared delivery)
      | .fix _ => do
          let order ← row.order.deliver delivery
          pure { next with order := order }
  | .install actor works artifact => do
      row.requireRevision command.expectedRevision
      row.requireMaintainer actor
      require (reads.artifact = true)
        (.todo "Retain the installed application artifact before closing.")
      let order ← row.order.install works artifact
      row.closed order
  | .withdraw actor why supersededBy => do
      row.requireRevision command.expectedRevision
      row.requireMaintainer actor
      let previous ← (row.holderState store).previousAssignment
      let order ← row.order.withdraw previous why supersededBy
      requireText why "Withdrawal reason" 2000
      row.closed order
  | .changeState state actor generation => do
      row.requireRevision command.expectedRevision
      require (row.state ≠ .done) (.conflict row.id)
      decided row state actor generation
  | .headVerdict actor review => do
      row.requireRevision command.expectedRevision
      requireLink store review row
      let judged ← headJudged store reads actor (review.by actor) row
      pure { judged with revision := row.revision + 1 }
  | .drop _ _ replacingMessage => do
      row.requireRevision command.expectedRevision
      let declared ← orRefuse row.order.declared? (.attribute "copy_as")
      pure { next with assignment := none, order := .dropped declared replacingMessage }
  | .foldSource _ into why => do
      row.requireRevision command.expectedRevision
      let order ← row.order.fold into.problem why
      pure { next with state := .done, assignment := none, order := order }
  | .foldTarget _ source sourceText => do
      row.requireRevision command.expectedRevision
      pure { next with text := row.text ++ " [+" ++ source ++ ": " ++ sourceText ++ "]" }
  | .link _ sent unit => do
      row.requireRevision command.expectedRevision
      row.requireOpen
      require (∀ assignment ∈ row.assignment, assignment.owner = unit)
        (.todo (row.id ++ " is already held by " ++ (row.assignment.map Assignment.owner).getD ""))
      let order ← row.order.linked sent.order
      let held ← orRefuse sent.assignment (.todo (sent.id ++ " has no open order."))
      pure { next with order := order, assignment := some held, request := sent.request,
                       reviewAt := sent.reviewAt }

/-- Only an assignment that moves the hold asks its holder and the receiver's goal. -/
def requireMove (cut : RegistrySnapshot) (reads : Reads) (actor : Actor) (row : Todo)
    (proposed : Assignment) : Checked Unit :=
  if movesHold row proposed then do
    requireRelease cut reads.env actor row
    require (reads.receiving = true) (.refusedRead "require_receiving_work")
  else .ok ()

def validate (store : TodoStore) (cut : RegistrySnapshot)
    (reads : Reads) (row : Todo) : Checked Unit :=
  match command.operation with
  | .assign actor proposed _ _ request => do
      requireMove cut reads actor row ((row.holderState store).proposedAssignment proposed)
      require (reads.available = true) (.refusedRead "require_available_in")
      let asked ← store.request request
      asked.requireOpen actor
  | .release actor _ _ _ | .withdraw actor _ _ => requireRelease cut reads.env actor row
  | .restoreHolder _ previous => do
      require ((cut.threadsFor previous.owner previous.ownerCreated).any fun thread =>
        reads.env.alive thread.processIdentity) (.conflict row.id)
      require (reads.available = true) (.refusedRead "require_available_in")
  | .recordPullRequest _ link _ => require (reads.registered = true)
      (.todo (link.repo ++ " is not a repository of this team's project; " ++ row.id ++
        " links only registered repositories."))
  | .drop actor newer _ => do
      requireRelease cut reads.env actor row
      let target ← store.current newer.problem
      target.requireRevision newer.expectedRevision
  | .foldSource actor into why => do
      row.requireMaintainer actor
      requireRelease cut reads.env actor row
      let target ← store.current into.problem
      target.requireRevision into.expectedRevision
      row.requireOpen
      target.requireOpen
      require (row.id ≠ target.id) (.todo "Fold needs two different open problems.")
      require (8 ≤ (OrderRun.words why).length)
        (.todo "Say why they are the same problem in 8+ words.")
  | .foldTarget actor _ _ => do
      row.requireMaintainer actor
      requireRelease cut reads.env actor row
  | .link actor sent _ => do
      let stored ← store.current sent.id
      require (stored = sent) (.conflict sent.id)
      row.requireMaintainer actor
      requireRelease cut reads.env actor row
      requireRelease cut reads.env actor sent
  | _ => .ok ()

def historyEvents (command : TodoCommand) (store : TodoStore) (reads : Reads) (row : Todo) :
    Checked (List StoryEvent) :=
  let revision := command.expectedRevision
  let implied (strike? : Option Strike) : List StoryEvent :=
    match strike? with
    | some strike => strike.historyEvents store row.id
    | none => []
  match command.operation with
  | .strike actor kind previous reason struckAt evidence =>
    .ok ((Strike.mk kind revision actor.identity previous reason struckAt
      evidence).historyEvents store row.id)
  | .verdict actor previous toolCall judgement judgedAt =>
    .ok (implied (judgement.strike? revision actor.identity previous judgedAt) ++
      [.verdict ⟨revision, actor.identity, previous, toolCall, judgement, judgedAt⟩])
  | .voidStrike actor strike reason voidedAt =>
    .ok [.voided revision actor.identity strike reason voidedAt]
  | .release actor previous reason releasedAt =>
    .ok [.release ⟨revision, actor.identity, previous, reason, releasedAt⟩]
  | .wordingCorrection message words correctedAt =>
    .ok [.wording revision message words correctedAt]
  | .orderMessage actor message sentAt => .ok [.message revision actor.identity message sentAt]
  | .headVerdict actor review => .ok (implied ((review.by actor).strike? revision))
  | .drop actor newer _ => do
      let held ← orRefuse row.assignment (.todo (row.id ++ " has no open order."))
      pure [.release ⟨row.revision, actor.identity, held, "Order " ++ row.id ++
        " replaced by newer " ++ newer.problem ++ " without a strike.", .recorded reads.now⟩]
  | _ => .ok []

/-- What some commands write beside the row, the archive and the story. -/
def related (origin : Origin) (row result : Todo) (store : TodoStore) : Checked TodoStore :=
  match command.operation with
  | .headVerdict actor review =>
    .ok { store with headReviews := store.headReviews ++ [review.by actor] }
  -- `after_void` is the row itself, so the second upsert stores the same row
  | .voidStrike _ _ _ _ => .ok (store.upsert origin (some result) result)
  | .link _ sent _ =>
    let events := store.events sent.id
    let orders := events.filter fun event => match event with
      | .order _ => true
      | _ => false
    let messages := events.filter fun event => match event with
      | .message _ _ _ _ => true
      | _ => false
    (orders ++ messages).foldlM (fun store event => store.append row.id event) store
  | _ => .ok store

def write (cut : RegistrySnapshot) (reads : Reads) (row : Todo)
    (store : TodoStore) : Checked TodoStore := do
  let origin := Origin.command cut reads command
  let result ← command.apply store reads row
  if result = row then command.related origin row result store
  else do
    command.validate store cut reads row
    let archived ← store.archive row result.order
    let events ← command.historyEvents archived reads row
    let told ← events.foldlM (fun store event => store.append row.id event) archived
    command.related origin row result (told.upsert origin (some row) result)

end TodoCommand

/-! ### The operations of the store -/

structure ProblemCommand where
  problem : ProblemId
  command : TodoCommand
  reads : Reads

def ProblemCommand.write (addressed : ProblemCommand) (cut : RegistrySnapshot)
    (store : TodoStore) : Checked TodoStore := do
  let row ← store.current addressed.problem
  addressed.command.write cut addressed.reads row store

def Todo.waitingIn (row : Todo) (merged : ProblemOrder) : Todo :=
  if row.order = merged then row
  else { row with order := merged, revision := row.revision + 1 }

/-- `closed_by_merge` and `after_merge` on a board row. -/
def Todo.closedByMerge (row : Todo) : MergeObservation → Checked Todo
  | .merged sha installed => do
      let merged ← orRefuse (row.order.mergedAt sha) (.refusedRead "observed_merges")
      let declared ← merged.checked
      if declared.run = .mechanical ∧ installed = true then row.closed merged
      else pure (row.waitingIn merged)
  | .requestClosed minted now =>
    match row.order with
    | .claimed declared _ | .reviewing declared _ _ =>
      .ok { row with order := .pending (declared.fresh minted now declared.edits),
                     revision := row.revision + 1 }
    | _ => .error (.refusedRead "closed pull request")

structure MergeResult where
  row : Todo
  observed : MergeObservation

/-- One result of `record_merges`: stored only at the observed revision. -/
def MergeResult.record (merge : MergeResult) (store : TodoStore) : Checked TodoStore := do
  let result ← merge.row.closedByMerge merge.observed
  let current ← store.current result.id
  if current.revision + 1 = result.revision then
    pure (store.upsert (.merge merge.observed) (some merge.row) result)
  else pure store

structure NewTodo where
  id : ProblemId
  repo : String
  text : String
  creator : String
  creatorCreated : Nat
  creatorActing : Actor
  assignment : Assignment
  reviewAt : EventTime
  order : Declaration
  request : RequestId

def NewTodo.row (new : NewTodo) : Todo :=
  { id := new.id, repo := new.repo, text := new.text, creator := new.creator,
    creatorCreated := new.creatorCreated, state := .open, revision := 1,
    request := some new.request, assignment := some new.assignment,
    order := .pending new.order, reviewAt := new.reviewAt }

/-- The same creation repeated writes nothing. -/
def NewTodo.create (new : NewTodo) (reads : Reads) (store : TodoStore) : Checked TodoStore := do
  requireText new.id "Todo ID" 128
  requireText new.text "Todo text" 2000
  require (reads.wording = true) (.refusedRead "order wording")
  new.reviewAt.requireRecorded "A review time"
  require (reads.receiving = true) (.refusedRead "require_receiving_work")
  require (reads.available = true) (.refusedRead "require_available_in")
  let asked ← store.request new.request
  asked.requireOpen new.creatorActing
  match store.todos.get? new.id with
  | none => pure (store.upsert .creation none new.row)
  | some row => do
      require (row = { new.row with state := row.state, revision := row.revision,
                                    assignment := row.assignment }) (.conflict row.id)
      row.requireAssignment new.assignment
      pure store

/-- Refused while pending work or an unaccepted claim serves it. -/
def TodoStore.completeRequest (store : TodoStore) (actor : Actor) (request : RequestId)
    (reason : String) : Checked TodoStore := do
  let asked ← store.request request
  asked.requireOpen actor
  require (store.serving request = [])
    (.valueError ("Request " ++ request ++ " still has pending orders."))
  require (blank reason = false) (.valueError "Completing an owner request requires a reason.")
  pure { store with requests := store.requests.set request { asked with state := .completed reason } }

def TodoStore.addRequest (store : TodoStore) (request : RequestId) (teammate : Nat)
    (text : String) : Checked TodoStore := do
  require (blank text = false) (.todo "An owner request needs its text.")
  require (request ∉ store.requests) (.refusedRead "primary key")
  pure { store with requests := store.requests.set request ⟨request, teammate, text, .open, []⟩ }

def TodoStore.recordDirective (store : TodoStore) (request : RequestId) (directive : Nat) :
    Checked TodoStore := do
  let asked ← store.request request
  require (asked.state = .open) (.valueError ("Request " ++ request ++ " is already completed."))
  pure { store with
    requests := store.requests.set request { asked with directives := asked.directives ++ [directive] } }

/-- Every open order the unit holds, in one transaction. -/
def TodoStore.correct (store : TodoStore) (cut : RegistrySnapshot) (reads : Reads) (unit : Nat)
    (message : MessageId) (words : List String) (correctedAt : EventTime) : Checked TodoStore :=
  (store.heldIn unit).foldlM (fun written row =>
    (TodoCommand.mk row.revision (.wordingCorrection message words correctedAt)).write
      cut reads row written) store

/-- Release every problem the unit holds, in one transaction. -/
def TodoStore.fire (store : TodoStore) (cut : RegistrySnapshot) (reads : Reads) (unit : Nat)
    (actor : Actor) (reason : String) (releasedAt : EventTime) : Checked TodoStore := do
  require (store.heldIn unit ≠ []) (.todo (toString unit ++ " holds no open problem."))
  (store.heldIn unit).foldlM (fun written row => do
    let held ← orRefuse row.assignment (.todo (row.id ++ " has no open order."))
    (TodoCommand.mk row.revision (.release actor held reason releasedAt)).write
      cut reads row written) store

/-- The store and the board rows some process has read and may still record merges from. -/
structure TodoWorld where
  store : TodoStore
  board : List Todo

def TodoWorld.empty : TodoWorld := ⟨.empty, []⟩

inductive StoreOp where
  | readBoard
  | addRequest (request : RequestId) (teammate : Nat) (text : String)
  | recordDirective (request : RequestId) (directive : Nat)
  | completeRequest (actor : Actor) (request : RequestId) (reason : String)
  | create (new : NewTodo) (reads : Reads)
  | applyTogether (cut : RegistrySnapshot) (commands : List ProblemCommand)
  | correct (cut : RegistrySnapshot) (reads : Reads) (unit : Nat) (message : MessageId)
      (words : List String) (correctedAt : EventTime)
  | fire (cut : RegistrySnapshot) (reads : Reads) (unit : Nat) (actor : Actor) (reason : String)
      (releasedAt : EventTime)
  | recordMerges (completed : List MergeResult)

/-- One transaction, or one board read; a refusal writes nothing. -/
def StoreOp.apply (op : StoreOp) (world : TodoWorld) : Checked TodoWorld :=
  let written (store : TodoStore) : TodoWorld := { world with store := store }
  match op with
  | .readBoard => .ok { world with
      board := world.board ++ world.store.todos.values.filter (·.state ≠ .done) }
  | .addRequest request teammate text =>
    written <$> world.store.addRequest request teammate text
  | .recordDirective request directive =>
    written <$> world.store.recordDirective request directive
  | .completeRequest actor request reason =>
    written <$> world.store.completeRequest actor request reason
  | .create new reads => written <$> new.create reads world.store
  | .applyTogether cut commands =>
    written <$> commands.foldlM (fun store command => command.write cut store) world.store
  | .correct cut reads unit message words correctedAt =>
    written <$> world.store.correct cut reads unit message words correctedAt
  | .fire cut reads unit actor reason releasedAt =>
    written <$> world.store.fire cut reads unit actor reason releasedAt
  -- a merge result is computed from a row that a board read returned
  | .recordMerges completed => do
      require (∀ merge ∈ completed, merge.row ∈ world.board) (.refusedRead "board")
      written <$> completed.foldlM (fun store merge => merge.record store) world.store

end AgentComms.Todos
