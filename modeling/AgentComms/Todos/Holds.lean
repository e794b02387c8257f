import AgentComms.Registry.Wire
import AgentComms.Todos.Runs

/-!
# Held work and its holder's consent

A write that changes or removes the holder of a problem either closes it with an order that
may close, or was made by an identity that represents the holder, as long as the holder is
registered in a status that owes consent. The code finds the holder through the name its
assignment recorded, so the result holds while that name leads to the thread of that birth.
-/

namespace AgentComms.Todos

open Library
open Registry

/-- The acting identity of a command; Core's wording correction has none. -/
def TodoOperation.actor? : TodoOperation → Option Actor
  | .assign actor .. | .strike actor .. | .verdict actor .. | .voidStrike actor ..
  | .release actor .. | .restoreHolder actor .. | .correctOrder actor .. | .orderMessage actor ..
  | .recordPullRequest actor .. | .serve actor .. | .claimOrder actor .. | .resumeClaim actor ..
  | .deliver actor .. | .install actor .. | .withdraw actor .. | .changeState _ actor _
  | .headVerdict actor .. | .drop actor .. | .foldSource actor .. | .foldTarget actor ..
  | .link actor .. => some actor
  | .wordingCorrection .. => none

/-- The command's class checks the current holder's consent (`ReleasesHold`); an assignment
does when it moves the hold. -/
def TodoOperation.asksHolder (op : TodoOperation) (store : TodoStore) (row : Todo) : Bool :=
  match op with
  | .assign _ proposed _ _ _ =>
    TodoCommand.movesHold row ((row.holderState store).proposedAssignment proposed)
  | .release .. | .withdraw .. | .drop .. | .foldSource .. | .foldTarget .. | .link .. => true
  | _ => false

/-- The thread of the holder's birth is registered in a status that requires consent. -/
def OwesConsent (cut : RegistrySnapshot) (env : Environment) (held : Assignment) : Prop :=
  ∃ thread ∈ cut.threads.values, thread.birth = held.ownerCreated ∧
    ∃ status, cut.status env thread.name = .ok status ∧ orphansHolds status = false

/-- The name the assignment recorded still leads to the thread of its birth. -/
def NameKept (cut : RegistrySnapshot) (held : Assignment) : Prop :=
  ∀ thread ∈ cut.threads.values, thread.birth = held.ownerCreated →
    cut.threads.get? (cut.canonicalName held.owner) = some thread

def TodoOperation.withdraws : TodoOperation → Bool
  | .withdraw .. => true
  | _ => false

/-- The write closed the problem with an order that `require_close` accepts. A withdrawal is
no such closing: it needs the holder as a release does. -/
def Write.Closes (write : Write) : Prop :=
  write.after.state = .done ∧ write.after.order.requireClose = .ok () ∧
    ∀ cut reads command, write.origin = .command cut reads command →
      command.operation.withdraws = false

/-- A passed consent check of a registered holder means that the actor represents it. -/
theorem represents_of_requireRelease {cut : RegistrySnapshot} {env : Environment} {actor : Actor}
    {row : Todo} {held : Assignment} (hheld : row.assignment = some held)
    (hok : requireRelease cut env actor row = .ok ()) (hname : NameKept cut held)
    (howes : OwesConsent cut env held) : actor.represents held.ownerIdentity = true := by
  obtain ⟨thread, hmem, hbirth, status, hstatus, hanswers⟩ := howes
  have hfound : cut.threadsFor held.owner held.ownerCreated = [thread] := by
    simp [RegistrySnapshot.threadsFor, hname thread hmem hbirth, hbirth]
  simp only [requireRelease, hheld, hfound] at hok
  have hcheck := forM_eq_ok.mp hok thread (List.mem_singleton_self thread)
  simp only [hstatus, Except.mapError, do_eq_ok] at hcheck
  obtain ⟨_, hread, hconsent⟩ := hcheck
  cases hread
  exact hconsent.resolve_left (by simp [hanswers])

/-- Every command whose class asks the holder checks its consent against the cut. -/
theorem requireRelease_of_validate {command : TodoCommand} {store : TodoStore}
    {cut : RegistrySnapshot} {reads : Reads} {row : Todo}
    (hasks : command.operation.asksHolder store row = true)
    (hvalid : command.validate store cut reads row = .ok ()) :
    ∃ actor, command.operation.actor? = some actor ∧
      requireRelease cut reads.env actor row = .ok () := by
  obtain ⟨revision, op⟩ := command
  cases op <;> simp only [TodoCommand.validate, bind_eq_ok] at hvalid
  case assign actor proposed reviewAt order request =>
    simp only [TodoOperation.asksHolder] at hasks
    simp only [TodoCommand.requireMove, hasks, if_true, bind_eq_ok] at hvalid
    obtain ⟨_, ⟨_, hrelease, -⟩, -⟩ := hvalid
    exact ⟨actor, rfl, hrelease⟩
  case release | withdraw => exact ⟨_, rfl, hvalid⟩
  case drop =>
    obtain ⟨_, hrelease, -⟩ := hvalid
    exact ⟨_, rfl, hrelease⟩
  case foldSource =>
    obtain ⟨_, -, _, hrelease, -⟩ := hvalid
    exact ⟨_, rfl, hrelease⟩
  case foldTarget =>
    obtain ⟨_, -, hrelease⟩ := hvalid
    exact ⟨_, rfl, hrelease⟩
  case link =>
    obtain ⟨stored, -, _, -, _, -, _, hrelease, -⟩ := hvalid
    exact ⟨_, rfl, hrelease⟩
  all_goals cases hasks

/-- A step changes the holder only if its command asks the holder, if nobody held the
problem, or if it closes it and is no withdrawal. -/
theorem RowStep.holder_cases {store : TodoStore} {row result : Todo} {op : TodoOperation}
    (hstep : RowStep store row op result) (hchanged : result.holder ≠ row.holder) :
    op.asksHolder store row = true ∨ row.assignment = none ∨
      result.state = .done ∧ result.order.requireClose = .ok () ∧ op.withdraws = false := by
  cases hstep with
  | kept | unmerged | delivered | stateChanged => exact absurd rfl hchanged
  | @assigned _ proposed assignment _ _ _ hholder _ =>
    refine .inl ?_
    have hmoves : row.holder ≠
        some ((row.holderState store).proposedAssignment proposed).holder := by
      rw [TodoCommand.holder_proposedAssignment, ← hholder]
      exact fun hsame => hchanged hsame.symm
    simp [TodoOperation.asksHolder, TodoCommand.movesHold, hmoves]
  | released | withdrawn | dropped | folded | linked => exact .inl rfl
  | restored _ hfree => exact .inr (.inl hfree)
  | reported _ hclose | installed _ hclose | finished _ hclose =>
    exact .inr (.inr ⟨rfl, hclose, rfl⟩)

/-- A write that changed or removed the holder closed the problem with an order that may
close it, or was made by an identity that represents the holder, whenever the holder is
registered in a status that owes consent and its recorded name still leads to it. -/
def Write.KeepsHold (write : Write) : Prop :=
  ∀ before held, write.before = some before → before.assignment = some held →
    write.after.holder ≠ before.holder →
    write.Closes ∨ ∃ cut reads command, write.origin = .command cut reads command ∧
      (NameKept cut held → OwesConsent cut reads.env held →
        ∃ actor, command.operation.actor? = some actor ∧
          actor.represents held.ownerIdentity = true)

/-- What the stored writes of one transaction owe, read off its row. -/
theorem TodoStore.Stored.keepsHold {store store' : TodoStore} {origin : Origin} {row result : Todo}
    (hstored : store.Stored origin row result store') (hrow : store.todos.get? row.id = some row)
    (hid : result.id = row.id) (hfirst : Write.KeepsHold ⟨origin, some row, some row, result⟩)
    (hall : ∀ write ∈ store.writes, write.KeepsHold) :
    ∀ write ∈ store'.writes, write.KeepsHold := by
  obtain ⟨repeated, hwrites, hrepeated⟩ := hstored.writes
  intro write hmem
  rw [hwrites, List.mem_append, List.mem_cons] at hmem
  obtain hmem | rfl | hmem := hmem
  · exact hall write hmem
  · rw [hid, hrow]
    exact hfirst
  · -- the same row stored again changes no holder
    rw [hrepeated write hmem]
    intro before held hbefore _ hchanged
    cases hbefore
    exact absurd rfl hchanged

theorem StoreStep.keepsHold {meets : Condition} {store store' : TodoStore}
    (hstep : StoreStep meets store store')
    (hall : ∀ write ∈ store.writes, write.KeepsHold) :
    ∀ write ∈ store'.writes, write.KeepsHold := by
  cases hstep with
  | told hsame => exact hsame.writes ▸ hall
  | command hrow _ _ hstep hvalid _ hstored =>
    refine hstored.keepsHold hrow hstep.id_eq ?_ hall
    intro before held hbefore hheld hchanged
    cases hbefore
    obtain hasks | hfree | ⟨hdone, hclose, hno⟩ := hstep.holder_cases hchanged
    · obtain ⟨actor, hactor, hrelease⟩ := requireRelease_of_validate hasks hvalid
      exact .inr ⟨_, _, _, rfl, fun hname howes =>
        ⟨actor, hactor, represents_of_requireRelease hheld hrelease hname howes⟩⟩
    · rw [hfree] at hheld
      cases hheld
    · refine .inl ⟨hdone, hclose, fun _ _ _ horigin => ?_⟩
      cases horigin
      exact hno
  | merge hrow _ _ hstep hstored =>
    refine hstored.keepsHold hrow hstep.id_eq ?_ hall
    intro before held hbefore hheld hchanged
    cases hbefore
    cases hstep with
    | closed hclose => exact .inl ⟨rfl, hclose, by simp⟩
    | waiting | reissued => exact absurd rfl hchanged
  | create hfresh =>
    intro write hmem
    obtain hmem | hmem := List.mem_append.mp hmem
    · exact hall write hmem
    · rw [List.mem_singleton] at hmem
      subst hmem
      intro before held hbefore
      simp only [NewTodo.row, hfresh] at hbefore
      cases hbefore
  | request => exact hall

/-- In every run a write keeps the hold, and a command whose consent check fails changes no
row. -/
theorem held_work_needs_its_holder (ops : List StoreOp) :
    (∀ write ∈ (run StoreOp.apply ops TodoWorld.empty).store.writes, write.KeepsHold) ∧
      ∀ (cut : RegistrySnapshot) (addressed : ProblemCommand) (store store' : TodoStore)
        (row : Todo), store.current addressed.problem = .ok row →
        addressed.command.operation.asksHolder store row = true →
        (∀ actor, addressed.command.operation.actor? = some actor →
          requireRelease cut addressed.reads.env actor row ≠ .ok ()) →
        addressed.write cut store = .ok store' →
        store'.todos = store.todos ∧ store'.writes = store.writes := by
  constructor
  · exact run_store_invariant (fun store => ∀ write ∈ store.writes, write.KeepsHold)
      (by simp [TodoStore.empty]) (fun _ _ hstep hall => hstep.keepsHold hall)
      (fun _ _ _ _ _ => trivial) ops (along_true ops _)
  · intro cut addressed store store' row hrow hasks hrefused hok
    simp only [ProblemCommand.write, hrow, bind_eq_ok] at hok
    obtain ⟨_, hsame, hwrite⟩ := hok
    cases hsame
    obtain ⟨hsame, -⟩ | ⟨result, -, -, hvalid, -⟩ := TodoCommand.write_cases hwrite
    · exact ⟨hsame.todos, hsame.writes⟩
    · obtain ⟨actor, hactor, hrelease⟩ := requireRelease_of_validate hasks hvalid
      exact absurd hrelease (hrefused actor hactor)

/-! ### A holder under another name -/

section Restored

def sampleReads : Reads where
  env := sampleEnvironment
  now := 10
  minted := "order-2"
  wording := true
  artifact := true
  receiving := true
  available := true
  traced := true
  registered := true

def laterFields : ThreadFields := { sampleFields with createdAt := .recorded 77 }

def laterThread : Thread := ⟨laterFields, by decide⟩

/-- A thread `alpha`, renamed to `beta`, is removed; another thread takes the name `alpha`;
the first one is restored from an earlier cut and starts again as `beta`. -/
def renamedDocument : RegistryDocument :=
  run RegistryOp.perform
    [(sampleEnvironment, .register sampleThread .process false),
     (sampleEnvironment, .rename "alpha" "beta")] RegistryDocument.empty

def restoredCut : Except RegistryError RegistrySnapshot := do
  let source ← renamedDocument.capture
  let document := run RegistryOp.perform
    [(sampleEnvironment, .remove "beta"),
     (sampleEnvironment, .register laterThread .process false),
     (sampleEnvironment, .restoreStopped source ["beta"]),
     (sampleEnvironment, .heartbeat "beta")] renamedDocument
  document.capture

def sampleDeclaration : Declaration where
  id := "order-1"
  pullRequests := []
  scope := .fix "shape"
  check := "check"
  edits := ["edit"]
  body := "body"
  orderedAt := 1
  firstCallDeadline := 121
  corrections := []
  run := .mechanical
  serves := "unplanned"
  finding := ""

def sampleAssignment : Assignment := ⟨"alpha", 1, "lead", 5, "goal-1", []⟩

def heldOps : List StoreOp :=
  [.addRequest "request" 5 "Make it work.",
   .create ⟨"P1", "repo", "It does not work.", "lead", 5, .recorded "lead" 5, sampleAssignment,
     .recorded 200, sampleDeclaration, "request"⟩ sampleReads]

def stranger : Actor := .peer "gamma" 9

def strangerRelease (cut : RegistrySnapshot) : StoreOp :=
  .applyTogether cut
    [⟨"P1", ⟨1, .release stranger sampleAssignment "It was never delivered." (.recorded 20)⟩,
      sampleReads⟩]

/-- The holder is registered as `beta` and its heartbeat is fresh, but its assignment names
`alpha`: a colleague takes the work without it. -/
theorem restored_holder_loses_hold :
    ∃ cut, restoredCut = .ok cut ∧ OwesConsent cut sampleEnvironment sampleAssignment ∧
      stranger.represents sampleAssignment.ownerIdentity = false ∧
      ((run StoreOp.apply heldOps TodoWorld.empty).store.todos.get? "P1").map
        (fun row => (row.state, row.assignment)) = some (.open, some sampleAssignment) ∧
      ((run StoreOp.apply (heldOps ++ [strangerRelease cut]) TodoWorld.empty).store.todos.get?
        "P1").map (fun row => (row.state, row.assignment)) = some (.open, none) := by
  have hrun : ∃ cut, restoredCut = .ok cut ∧
      (cut.threads.get? "beta").map (fun thread => (thread.name, thread.birth)) = some ("beta", 1) ∧
      (cut.status sampleEnvironment "beta").toOption = some .heartbeat ∧
      ((run StoreOp.apply (heldOps ++ [strangerRelease cut]) TodoWorld.empty).store.todos.get?
        "P1").map (fun row => (row.state, row.assignment)) = some (.open, none) :=
    exists_ok_of_decide (by decide +kernel)
  obtain ⟨cut, hcut, hthread, hstatus, hreleased⟩ := hrun
  refine ⟨cut, hcut, ?_, by decide, by decide +kernel, hreleased⟩
  obtain ⟨thread, hget, hfields⟩ := Option.map_eq_some_iff.mp hthread
  obtain ⟨hname, hbirth⟩ := Prod.mk.inj hfields
  refine ⟨thread, Dict.mem_values.mpr ⟨_, hget⟩, hbirth, .heartbeat, ?_, rfl⟩
  rw [hname]
  cases hread : cut.status sampleEnvironment "beta" with
  | ok =>
    rw [hread] at hstatus
    cases hstatus
    rfl
  | error =>
    rw [hread] at hstatus
    cases hstatus

end Restored

end AgentComms.Todos
