import AgentComms.Library.Text
import AgentComms.Library.Dict

/-!
# Orders and their holders

The values a problem's row is made of (`todos.py`, `order_runs.py`,
`thread_identity.py`): who acts, who holds the work, the run that closes an order, and the
family of orders a problem moves through. Each function of the family is one definition
by cases on the member, with the inherited behaviour of the source written out.

`ThreadIncarnation.__eq__` compares births and ignores names, so what is stored is an
`Identity`; an `Actor` is the caller with the authority it was resolved to. The fields of
a checked order that are only copied and compared (owner line, banned actions, report,
deletions, created lines) are one text, `body`.
-/

namespace AgentComms.Todos

open Library

abbrev ProblemId := String
abbrev OrderId := String
abbrev GoalId := String
abbrev RequestId := String
abbrev ToolCallId := String
abbrev MessageId := String

inductive TodoError where
  | todo (text : String)
  | conflict (problem : ProblemId)
  | notWorkMaintainer (text : String)
  | consentRequired (text : String)
  | foreignRequest (text : String)
  | toolRefused (text : String)
  | valueError (text : String)
  | unrecordedTime (text : String)
  /-- The member of the family has no such method. -/
  | attribute (name : String)
  /-- A check against another store or the file system refused. -/
  | refusedRead (what : String)
deriving DecidableEq, Repr

abbrev Checked := Except TodoError

/-! ### Actors and assignments -/

inductive Identity where
  | recorded (birth : Nat)
  | deleted (name : String)
  | unrecorded (name : String)
  | coreWatcher
deriving DecidableEq, Repr

/-- The acting thread, with the authority it was resolved to before the write. -/
inductive Actor where
  | recorded (name : String) (birth : Nat)
  | peer (name : String) (birth : Nat)
  | fork (name : String) (birth : Nat) (authority : Actor)
  | deleted (name : String)
  | unrecorded (name : String)
  | coreWatcher
deriving DecidableEq, Repr

namespace Actor

def name : Actor → String
  | .recorded name _ | .peer name _ | .fork name _ _ | .deleted name | .unrecorded name => name
  | .coreWatcher => "core_watcher"

def identity : Actor → Identity
  | .recorded _ birth | .peer _ birth | .fork _ birth _ => .recorded birth
  | .deleted name => .deleted name
  | .unrecorded name => .unrecorded name
  | .coreWatcher => .coreWatcher

/-- Shared work maintenance; it does not authorize taking a holder's work. -/
def actsFor : Actor → Identity → Bool
  | .peer _ _, _ => true
  | .coreWatcher, _ => true
  | .fork _ _ authority, creator => authority.actsFor creator
  | actor, creator => creator = actor.identity

def representedOwners : Actor → List Identity
  | .fork _ birth authority => .recorded birth :: authority.representedOwners
  | actor => [actor.identity]

def represents (actor : Actor) (owner : Identity) : Bool := owner ∈ actor.representedOwners

end Actor

structure Assignment where
  owner : String
  ownerCreated : Nat
  parent : String
  parentCreated : Int
  generation : GoalId
  previousOwners : List Identity
deriving DecidableEq, Repr

namespace Assignment

def ownerIdentity (assignment : Assignment) : Identity := .recorded assignment.ownerCreated

def holder (assignment : Assignment) : Nat × GoalId :=
  (assignment.ownerCreated, assignment.generation)

def handedTo (assignment proposed : Assignment) : Assignment :=
  { proposed with
    previousOwners :=
      if assignment.ownerCreated = proposed.ownerCreated then assignment.previousOwners
      else assignment.previousOwners ++ [assignment.ownerIdentity] }

end Assignment

inductive EventTime where
  | recorded (moment : Int)
  | unrecorded
deriving DecidableEq, Repr

def EventTime.requireRecorded (label : String) : EventTime → Checked Unit
  | .recorded _ => .ok ()
  | .unrecorded => .error (.unrecordedTime (label ++ " requires a recorded time."))

/-! ### Runs that close an order -/

inductive OrderRun where
  | mechanical
  | application (text : String)
deriving DecidableEq, Repr

namespace OrderRun

def leastWords : Nat := 8
def quotedWords : Nat := 4

/-- `str.split()`. -/
def words (text : String) : List String :=
  ((text.toList.splitOnP isSpace).filter (· ≠ [])).map String.ofList

/-- `word.strip(...).lower()`, where only the ASCII letters are lowered. -/
def bare (word : String) : String :=
  let mark (char : Char) : Bool := ".,;:!?\"'`()".toList.contains char
  String.ofList ((((word.toList.dropWhile mark).reverse.dropWhile mark).reverse).map Char.toLower)

def phrases (text : String) : List (List String) :=
  let found := (words text).map bare
  (List.range (found.length + 1 - quotedWords)).map fun i => (found.drop i).take quotedWords

def requireMergeClose : OrderRun → Checked Unit
  | .mechanical => .ok ()
  | .application _ => .error (.toolRefused
      "A merge never closes an application order; order close --works records the run.")

def requireClosing (works : String) : OrderRun → Checked Unit
  | .mechanical => .ok ()
  | .application text =>
    require (leastWords ≤ (words works).length ∧
        (phrases text).any fun phrase => (phrases works).contains phrase)
      (.toolRefused ("Describe what worked in 8+ words, quoting 4+ consecutive words of: " ++
        "Works when: " ++ text))

end OrderRun

/-! ### The parts of an order -/

structure PullRequestLink where
  repo : String
  number : Nat
deriving DecidableEq, Repr

def PullRequestLink.url (link : PullRequestLink) : String :=
  "https://github.com/" ++ link.repo ++ "/pull/" ++ toString link.number

structure MergedLink where
  link : PullRequestLink
  sha : String
deriving DecidableEq, Repr

/-- The part of an open order that a correction replaces, and what replaces it. -/
inductive CorrectedPart where
  | check (previous check : String)
  | run (previous run : OrderRun)
  | mergedLink (previous : MergedLink)
  | link (previous : List PullRequestLink) (link : PullRequestLink)
deriving DecidableEq, Repr

structure Correction where
  expectedRevision : Nat
  actor : Identity
  reason : String
  part : CorrectedPart
  correctedAt : EventTime
deriving DecidableEq, Repr

inductive OrderScope where
  | triage
  | fix (shape : String)
deriving DecidableEq, Repr

structure Declaration where
  id : OrderId
  pullRequests : List PullRequestLink
  scope : OrderScope
  check : String
  edits : List String
  body : String
  orderedAt : Int
  firstCallDeadline : Int
  corrections : List Correction
  run : OrderRun
  serves : String
  finding : String
deriving DecidableEq, Repr

namespace Declaration

variable (declared : Declaration)

def unlinked (link : PullRequestLink) : Checked Declaration := do
  require (link ∈ declared.pullRequests)
    (.todo ("Order " ++ declared.id ++ " does not link " ++ link.url ++ "; read it again."))
  pure { declared with pullRequests := declared.pullRequests.filter (· ≠ link) }

def carrying (link : PullRequestLink) : Declaration :=
  if link ∈ declared.pullRequests then declared
  else { declared with pullRequests := declared.pullRequests ++ [link] }

def fresh (id : OrderId) (now : Int) (edits : List String) : Declaration :=
  { declared with
    id := id
    orderedAt := now
    firstCallDeadline := now + (declared.firstCallDeadline - declared.orderedAt)
    edits := edits }

end Declaration

/-- The holder's assertion; `reviewer` is the selected one, if any. -/
structure OrderClaim where
  pullRequest : PullRequestLink
  head : String
  messageId : MessageId
  report : String
  reviewer : Option Identity
deriving DecidableEq, Repr

inductive HeadVerdict where
  | reviewed (reason : String)
  | qualified (reason : String)
  | discarded (reason : String)
  | rejected (reason : String)
  | underReview
deriving DecidableEq, Repr

/-- `OrderHeadReviewRecord`, with the order it is linked to. -/
structure HeadReview where
  pullRequest : PullRequestLink
  head : String
  actor : Identity
  reviewedAt : EventTime
  verdict : HeadVerdict
  problem : ProblemId
  previous : Assignment
  orderId : OrderId
  evidence : List String
deriving DecidableEq, Repr

inductive DeliveredWork where
  | report (text : String)
  | commit (commit delivered : String) (merge : Option String)
  | operation
deriving DecidableEq, Repr

def DeliveredWork.text : DeliveredWork → String
  | .report text => text
  | .commit _ delivered _ => "delivered commit " ++ delivered
  | .operation => "delivered work"

/-- A delivery and what its proof observed. -/
structure OrderDelivery where
  work : DeliveredWork
  deliveredAt : EventTime
  evidence : Option String
  proofBuild : Option String
deriving DecidableEq, Repr

/-- The same work observed again. -/
def OrderDelivery.reproved (recorded delivery : OrderDelivery) : Checked OrderDelivery := do
  require (delivery.work = recorded.work)
    (.todo "The order already records a different delivery.")
  pure delivery

structure InstalledEvidence where
  works : String
  artifact : String
  described : blank works = false
  named : blank artifact = false
deriving DecidableEq

def InstalledEvidence.make (works artifact : String) : Checked InstalledEvidence :=
  if h : blank works = false ∧ blank artifact = false then .ok ⟨works, artifact, h.1, h.2⟩
  else .error (.todo "Describe what worked and name its artifact file.")

/-! ### The family of orders -/

inductive ProblemOrder where
  | unordered (finding : String)
  | folded (original : ProblemOrder) (into : ProblemId) (why finding : String)
  | pending (declared : Declaration)
  | dropped (declared : Declaration) (replacingMessage : MessageId)
  | claimed (declared : Declaration) (claim : OrderClaim)
  | reviewing (declared : Declaration) (claim : OrderClaim) (review : HeadReview)
  | delivered (declared : Declaration) (delivery : OrderDelivery)
  | reported (declared : Declaration) (delivery : OrderDelivery)
  | merged (declared : Declaration) (sha : String)
  | installed (declared : Declaration) (delivery : OrderDelivery) (evidence : InstalledEvidence)
  | installedMerged (declared : Declaration) (sha : String) (evidence : InstalledEvidence)
  | withdrawn (declared : Declaration) (previous : Assignment) (why : String)
      (supersededBy : Option ProblemId)
deriving DecidableEq

namespace ProblemOrder

def declared? : ProblemOrder → Option Declaration
  | .unordered _ | .folded _ _ _ _ => none
  | .pending declared | .dropped declared _ | .claimed declared _ | .reviewing declared _ _
  | .delivered declared _ | .reported declared _ | .merged declared _ | .installed declared _ _
  | .installedMerged declared _ _ | .withdrawn declared _ _ _ => some declared

/-- `dataclasses.replace` on the fields every checked order has. -/
def withDeclared (changed : Declaration) : ProblemOrder → ProblemOrder
  | .pending _ => .pending changed
  | .dropped _ message => .dropped changed message
  | .claimed _ claim => .claimed changed claim
  | .reviewing _ claim review => .reviewing changed claim review
  | .delivered _ delivery => .delivered changed delivery
  | .reported _ delivery => .reported changed delivery
  | .merged _ sha => .merged changed sha
  | .installed _ delivery evidence => .installed changed delivery evidence
  | .installedMerged _ sha evidence => .installedMerged changed sha evidence
  | .withdrawn _ previous why superseded => .withdrawn changed previous why superseded
  | order => order

/-- `replace(order, finding=...)`. -/
def withFinding (finding : String) : ProblemOrder → ProblemOrder
  | .unordered _ => .unordered finding
  | .folded original into why _ => .folded original into why finding
  | order =>
    match order.declared? with
    | some declared => order.withDeclared { declared with finding := finding }
    | none => order

/-- `DeliverableProblemOrder`: work that awaits a delivery verdict. -/
def deliverable : ProblemOrder → Bool
  | .pending _ | .claimed _ _ | .reviewing _ _ _ => true
  | _ => false

def isOpen : ProblemOrder → Bool
  | .unordered _ | .folded _ _ _ _ | .dropped _ _ | .withdrawn _ _ _ _ => false
  | _ => true

def evidence? : ProblemOrder → Option InstalledEvidence
  | .installed _ _ evidence | .installedMerged _ _ evidence => some evidence
  | _ => none

def checked (order : ProblemOrder) : Checked Declaration :=
  orRefuse order.declared? (.todo "This problem has no checked order.")

/-- The declarations an order still carries; a fold keeps those of its original. -/
def declarations : ProblemOrder → List ProblemOrder
  | .unordered _ => []
  | .folded original _ _ _ => original.declarations
  | order => [order]

def requireClose : ProblemOrder → Checked Unit
  | .reported _ _ | .installed _ _ _ | .installedMerged _ _ _ | .withdrawn _ _ _ _ => .ok ()
  | .merged declared _ => declared.run.requireMergeClose
  | _ => .error (.todo "Closing requires recorded installed application evidence.")

section

variable (order : ProblemOrder)

def install (works artifact : String) : Checked ProblemOrder :=
  match order with
  | .delivered declared delivery | .reported declared delivery => do
      declared.run.requireClosing works
      let evidence ← InstalledEvidence.make works artifact
      pure (.installed declared delivery evidence)
  | .merged declared sha => do
      declared.run.requireClosing works
      let evidence ← InstalledEvidence.make works artifact
      pure (.installedMerged declared sha evidence)
  | .installed _ _ evidence | .installedMerged _ _ evidence => do
      require ((works, artifact) = (evidence.works, evidence.artifact))
        (.todo "The order already records different installed evidence.")
      pure order
  | .unordered _ | .folded _ _ _ _ => .error (.attribute "installed")
  | _ => .error (.todo "Check the delivered order before recording installation.")

/-- An installed order inherits the permission of every open order. -/
def withdraw (previous : Assignment) (why : String)
    (supersededBy : Option ProblemId) : Checked ProblemOrder := do
  let declared ← orRefuse order.declared? (.attribute "withdrawn")
  require (order.isOpen = true) (.todo "Only an open order can be withdrawn.")
  pure (.withdrawn declared previous why supersededBy)

def requireDelivery (id : OrderId) : Checked Unit := do
  let declared ← orRefuse order.declared? (.attribute "require_delivery")
  require (order.isOpen = true) (.todo "Only an open order can be delivered.")
  require (declared.id = id) (.todo "The order changed; refresh its state before delivering it.")

/-- `delivered`: an order with a delivery only takes the same work again. -/
def deliver (delivery : OrderDelivery) : Checked ProblemOrder :=
  match order with
  | .delivered declared recorded => do
      let proved ← recorded.reproved delivery
      pure (.delivered declared proved)
  | .reported declared recorded => do
      let proved ← recorded.reproved delivery
      pure (.reported declared proved)
  | .installed declared recorded evidence => do
      let proved ← recorded.reproved delivery
      pure (.installed declared proved evidence)
  | _ => do
      let declared ← orRefuse order.declared? (.attribute "delivered")
      delivery.deliveredAt.requireRecorded "A delivery"
      pure (.delivered declared delivery)

def claim (order : ProblemOrder) (claim : OrderClaim) : Checked ProblemOrder :=
  match order with
  | .pending declared => .ok (.claimed (declared.carrying claim.pullRequest) claim)
  | .unordered _ | .folded _ _ _ _ => .error (.todo "This problem has no checked order.")
  | _ => .error (.todo "Only a pending order can be claimed by its holder.")

/-- Only a claim takes a reviewer's mark. -/
def underReview (review : HeadReview) : ProblemOrder → ProblemOrder
  | .claimed declared claim => .reviewing declared claim review
  | .reviewing declared claim _ => .reviewing declared claim review
  | order => order

/-- Only undelivered work is reissued by a send-back. -/
def sentBack (reason : String) (minted : OrderId) (now : Int) : ProblemOrder :=
  match order with
  | .pending declared | .claimed declared _ | .reviewing declared _ _ =>
    .pending (declared.fresh minted now (declared.edits ++ [reason]))
  | _ => order

/-- An unordered problem, and one whose order was dropped, takes another problem's order. -/
def linked (order sent : ProblemOrder) : Checked ProblemOrder :=
  match order with
  | .unordered finding => .ok (sent.withFinding finding)
  | .dropped declared _ => .ok (sent.withFinding declared.finding)
  | _ => .error (.todo "This problem already has an order; drop it before linking another.")

def fold (into : ProblemId) (why : String) : Checked ProblemOrder :=
  match order with
  | .pending _ => .error (.todo "The problem has open orders; link or drop them first.")
  | _ => .ok (.folded order into why "")

def forPhase (phase : String) : Checked ProblemOrder := do
  let declared ← orRefuse order.declared?
    (.todo "Only a checked order can declare a plan phase.")
  pure (order.withDeclared { declared with serves := phase })

/-- The merge an order recorded, which closes its pull requests. -/
def sha? : ProblemOrder → Option String
  | .merged _ sha | .installedMerged _ sha _ => some sha
  | _ => none

def requireLinkable : Checked Unit :=
  match order with
  | .merged declared sha | .installedMerged declared sha _ =>
    .error (.todo ("Order " ++ declared.id ++ " merged as " ++ (sha.take 9).toString ++
      "; its pull requests are closed. Ask the teammate for a send-back before opening or " ++
      "linking another PR."))
  | _ => .ok ()

/-- The order with the corrected part replaced, before the correction is recorded on it. -/
def replacePart (declared : Declaration) : CorrectedPart → Checked (ProblemOrder × Declaration)
  | .check previous check => do
      require (previous = declared.check) stale
      pure (order, { declared with check := check })
  | .run previous run => do
      require (previous = declared.run) stale
      pure (order, { declared with run := run })
  | .mergedLink previous => do
      let sha ← orRefuse order.sha?
        (.todo ("Order " ++ declared.id ++ " records no merge to take back."))
      let unlinked ← declared.unlinked previous.link
      require (previous = ⟨previous.link, sha⟩) stale
      pure (.pending unlinked, unlinked)
  | .link previous link => do
      require (previous = declared.pullRequests) stale
      order.requireLinkable
      let unlinked ← declared.unlinked link
      pure (order, unlinked)
where
  stale : TodoError := .todo "The corrected part changed since it was read; read it again."

/-- An open order takes the correction and keeps it on the record. -/
def corrected (correction : Correction) : Checked ProblemOrder := do
  let declared ← orRefuse order.declared?
    (.todo "Only an active checked order takes a correction.")
  require (order.isOpen = true) (.todo "Only an active checked order takes a correction.")
  let (replaced, changed) ← order.replacePart declared correction.part
  pure (replaced.withDeclared
    { changed with corrections := declared.corrections ++ [correction] })

def teamClaims : ProblemOrder → List OrderClaim
  | .claimed _ claim | .reviewing _ claim _ => [claim]
  | _ => []

/-- `merged(sha)`; installed evidence stays with the merge. -/
def mergedAt (sha : String) : Option ProblemOrder :=
  match order with
  | .reported _ _ => none
  | .merged _ _ | .installedMerged _ _ _ => some order
  | .installed declared _ evidence => some (.installedMerged declared sha evidence)
  | _ => order.declared?.map fun declared => .merged declared sha

def requireTransfer (holder : Checked Assignment) : Checked Unit :=
  match order with
  | .unordered _ | .dropped _ _ | .pending _ => .ok ()
  | .folded _ _ _ _ => .error (.todo "This problem cannot receive another order.")
  | .delivered _ delivery | .reported _ delivery | .installed _ delivery _ => do
      let previous ← holder
      .error (.todo (previous.owner ++ " already has " ++ delivery.work.text ++ "; " ++
        previous.owner ++ " merges it."))
  | _ => .error (.todo "Only an undelivered order can change owner.")

/-- A corrected order to the claimant replaces its claim. -/
def requireReassignment (holder : Checked Assignment) (proposed : Assignment) : Checked Unit :=
  match order with
  | .claimed _ _ | .reviewing _ _ _ => do
      let previous ← holder
      if proposed.ownerCreated = previous.ownerCreated then .ok ()
      else order.requireTransfer holder
  | _ => order.requireTransfer holder

end

/-! #### What the operations leave -/

@[simp] theorem evidence?_withDeclared (order : ProblemOrder) (changed : Declaration) :
    (order.withDeclared changed).evidence? = order.evidence? := by
  cases order <;> rfl

@[simp] theorem deliverable_withDeclared (order : ProblemOrder) (changed : Declaration) :
    (order.withDeclared changed).deliverable = order.deliverable := by
  cases order <;> rfl

@[simp] theorem deliverable_withFinding (order : ProblemOrder) (finding : String) :
    (order.withFinding finding).deliverable = order.deliverable := by
  cases order <;> rfl

@[simp] theorem evidence?_withFinding (order : ProblemOrder) (finding : String) :
    (order.withFinding finding).evidence? = order.evidence? := by
  cases order <;> rfl

@[simp] theorem deliverable_underReview (order : ProblemOrder) (review : HeadReview) :
    (order.underReview review).deliverable = order.deliverable := by
  cases order <;> rfl

@[simp] theorem evidence?_underReview (order : ProblemOrder) (review : HeadReview) :
    (order.underReview review).evidence? = order.evidence? := by
  cases order <;> rfl

@[simp] theorem deliverable_sentBack (order : ProblemOrder) (reason : String) (minted : OrderId)
    (now : Int) : (order.sentBack reason minted now).deliverable = order.deliverable := by
  cases order <;> rfl

@[simp] theorem evidence?_sentBack (order : ProblemOrder) (reason : String) (minted : OrderId)
    (now : Int) : (order.sentBack reason minted now).evidence? = order.evidence? := by
  cases order <;> rfl

/-- Nothing that may close a problem awaits a delivery. -/
theorem not_deliverable_of_requireClose {order : ProblemOrder}
    (hclose : order.requireClose = .ok ()) : order.deliverable = false := by
  cases order with
  | pending | claimed | reviewing => cases hclose
  | _ => rfl

end ProblemOrder

end AgentComms.Todos
