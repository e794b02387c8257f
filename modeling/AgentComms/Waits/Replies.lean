import AgentComms.Inputs.Bound
import AgentComms.Waits.Reviews

/-!
# A wait neither loses a reply nor invents silence

A standby reads its replies from one bus snapshot and their inputs from the store after
it. A reply of the snapshot is settled for the goal when the wait is recorded, because an
unresolved one stops the publication; a reply that came later is after the wait's cursor.
The review selects inputs under the names its owner had at the capture, so this needs every
unresolved reply to be stored under one of them.

A release reads silence without the lock. In the edit the reviewed wait is still there and
the bus has received nothing for the owner since that read, so the log of the commit is
silent too.
-/

namespace AgentComms.Inputs

open Library

variable {Origin Digest : Type} [DecidableEq Origin] [DecidableEq Digest]

/-! ### Settled inputs -/

namespace InputDocument

variable {digest : String → Digest} {document recorded store next : InputDocument Origin Digest}
  {key : InputKey} {goalId : String}

/-- The input of this key is started, cleared, or reviewed for the goal. -/
def Settled (document : InputDocument Origin Digest) (key : InputKey) (goalId : String) : Prop :=
  ∃ row, document.lookup key = some row ∧
    (row.state.unresolved = false ∨ goalId ∈ row.goalReviews)

instance : Decidable (document.Settled key goalId) :=
  decidable_of_iff (∃ row ∈ document.lookup key,
    row.state.unresolved = false ∨ goalId ∈ row.goalReviews) Iff.rfl

omit [DecidableEq Origin] [DecidableEq Digest] in
theorem Settled.keyStep {op : InputOp Origin Digest} (hsettled : store.Settled key goalId)
    (hstep : KeyStep digest op key (store.lookup key) (next.lookup key)) :
    next.Settled key goalId := by
  obtain ⟨row, hrow, hdone⟩ := hsettled
  rw [hrow] at hstep
  unfold Settled
  generalize next.lookup key = after at hstep
  cases hstep with
  | same => exact ⟨row, rfl, hdone⟩
  | noted row dismissed hreviews => exact ⟨_, rfl, hdone.imp_right (hreviews goalId)⟩
  | @moved row state hmoves =>
    refine ⟨_, rfl, hdone.imp_left fun hresolved => ?_⟩
    generalize row.state = before at hmoves hresolved
    -- the only move out of a resolved state consumes the context of a started input
    cases hmoves with
    | context => rfl
    | bound | notSent | clearedUnsent | clearedNative | started => cases hresolved

theorem Settled.run (hsettled : store.Settled key goalId) (ops : List (InputOp Origin Digest)) :
    (Library.run (InputOp.step digest) ops store).Settled key goalId :=
  run_invariant (fun reached : InputDocument Origin Digest => reached.Settled key goalId)
    (fun op _ _ hbefore hok => hbefore.keyStep (op.keyStep hok key)) ops hsettled

/-- Every key of a review is settled for its goal. -/
theorem settled_of_reviewForGoal {keys : List InputKey} {owners : List String}
    {decision : GoalInputDecision} {observed : List (StoredInput Origin Digest)}
    {answer : InputDocument Origin Digest}
    (hok : InputDispositions.reviewForGoal store keys owners goalId decision observed =
      .ok (next, answer)) (hkey : key ∈ keys) : next.Settled key goalId := by
  rw [InputDispositions.reviewForGoal, InputDispositions.update_eq_ok] at hok
  obtain ⟨changed, hchange, rfl⟩ := hok
  simp only [bind_eq_ok] at hchange
  obtain ⟨rows, -, -, -, hchange⟩ := hchange
  split at hchange
  next hnil => exact absurd (hnil ▸ hkey) List.not_mem_nil
  · simp only [do_eq_ok, make_eq_ok] at hchange
    obtain ⟨reviews, hreviews, written, hwritten, rfl, -⟩ := hchange
    rcases InputDispositions.reviews_cases hreviews key with ⟨hnot, -⟩ | ⟨-, row, -, -, hget⟩
    · exact absurd hkey hnot
    · refine ⟨row.reviewed goalId decision, ?_, .inr (Dict.mem_set.mpr (.inl rfl))⟩
      rw [InputDispositions.lookup_write, lookup, hwritten, Dict.get?_update, hget]
      rfl

omit [DecidableEq Origin] [DecidableEq Digest] in
theorem exists_of_record {originals : List (ReservedInput Origin)}
    (hok : document.record originals = .ok recorded) {row : ReservedInput Origin}
    (hrow : row ∈ originals) : ∃ stored, recorded.lookup row.key = some stored := by
  rw [record, make_eq_ok] at hok
  unfold lookup
  rw [hok, ← Dict.mem_iff]
  clear hok
  -- a key stays once it is there
  have hstays : ∀ (originals : List (ReservedInput Origin)) (rows : InputRows Origin Digest),
      row.key ∈ rows ∨ row ∈ originals →
      row.key ∈ originals.foldl (fun rows row =>
        if row.key ∈ rows then rows else rows.set row.key row.stored) rows := by
    intro originals
    induction originals with
    | nil => exact fun rows hmem => hmem.resolve_right List.not_mem_nil
    | cons first originals ih =>
      intro rows hmem
      rw [List.foldl_cons]
      refine ih _ ?_
      rcases hmem with hthere | hmem
      · left
        split
        · exact hthere
        · exact Dict.mem_set.mpr (.inr hthere)
      · rcases List.mem_cons.mp hmem with rfl | hmem
        · left
          split
          · assumption
          · exact Dict.mem_set.mpr (.inl rfl)
        · exact .inr hmem
  exact hstays originals document.rows (.inr hrow)

omit [DecidableEq Origin] [DecidableEq Digest] in
/-- Writing rows of one document over others finds each of them again. -/
theorem get?_foldl_set_rows {rows : List (StoredInput Origin Digest)}
    (hrows : ∀ row ∈ rows, document.lookup row.key = some row) (start : InputRows Origin Digest)
    {row : StoredInput Origin Digest} (hrow : row ∈ rows) :
    (rows.foldl (fun rows row => rows.set row.key row) start).get? row.key = some row := by
  rw [Dict.get?_foldl_set_last (fun row : StoredInput Origin Digest => row.key) (fun row => row),
    Option.map_id']
  have hmem : row ∈ rows.filter fun other => other.key = row.key :=
    List.mem_filter.mpr ⟨hrow, decide_eq_true rfl⟩
  cases hlast : (rows.filter fun other => other.key = row.key).getLast? with
  | none =>
    rw [List.getLast?_eq_none_iff] at hlast
    rw [hlast] at hmem
    cases hmem
  | some last =>
    obtain ⟨hlastMem, hkey⟩ := List.mem_filter.mp (List.mem_of_getLast? hlast)
    have hsame := hrows last hlastMem
    rw [of_decide_eq_true hkey, hrows row hrow] at hsame
    exact hsame.symm

end InputDocument

end AgentComms.Inputs

namespace AgentComms.Waits

open Library
open Inputs
open Goals (Goal)

variable {Origin Digest : Type} [DecidableEq Origin] [DecidableEq Digest] {registry : RegistryCut}
  {thread : ThreadRow} {wait : RecordedGoalWait} {released : Released Origin Digest}

/-! ### What others do -/

namespace World

variable (digest : String → Digest) {world : World Origin Digest}

theorem step_bus (world : World Origin Digest) (event : WorldEvent Origin Digest) :
    world.bus.Grows (world.step digest event).bus := by
  cases event with
  | publish publication => exact world.bus.append_grows publication
  | appendOther => exact world.bus.appendOther_grows
  | _ => exact .refl world.bus

theorem after_bus (world : World Origin Digest) (events : List (WorldEvent Origin Digest)) :
    world.bus.Grows (world.after digest events).bus := by
  induction events generalizing world with
  | nil => exact .refl world.bus
  | cons event events ih => exact (world.step_bus digest event).trans (ih _)

theorem after_settled {key : InputKey} {goalId : String}
    (hsettled : world.inputs.Settled key goalId) (events : List (WorldEvent Origin Digest)) :
    (world.after digest events).inputs.Settled key goalId := by
  induction events generalizing world with
  | nil => exact hsettled
  | cons event events ih =>
    refine ih ?_
    cases event with
    | input op => exact hsettled.keyStep (keyStep_commit digest op world.inputs key)
    | _ => exact hsettled

end World

/-! ### The review covers its snapshot -/

theorem RegistryCut.threadsFor_eq_some {incarnation : Incarnation} :
    registry.threadsFor incarnation = some thread ↔
      registry.threads.get? (registry.canonicalName incarnation.name) = some thread ∧
        thread.birth = incarnation.birth := by
  rw [threadsFor, Option.filter_eq_some_iff, decide_eq_true_eq]

theorem RegistryCut.mem_namesFor {incarnation : Incarnation}
    (hthread : registry.threadsFor incarnation = some thread) :
    thread.name ∈ registry.namesFor thread.name := by
  have hentry := Dict.mem_entries.mpr (threadsFor_eq_some.mp hthread).1
  have hname := registry.keyed _ hentry
  have hfree := registry.unaliased _ hentry
  rw [← hname] at hfree
  have hself : registry.canonicalName thread.name = thread.name := by
    rw [canonicalName, Dict.get?_eq_none_iff.mpr hfree]
    rfl
  rw [namesFor, hself]
  exact List.mem_cons_self

theorem AudiencedMessage.responsePolicy_of_directFor {message : AudiencedMessage} {lookup : Nat}
    (hdirect : message.directFor lookup = true) : message.responsePolicy = .direct := by
  simp only [directFor, startsDirectTurn, ResponsePolicy.startsDirectTurn,
    ResponsePolicy.separateTurn, Bool.and_eq_true, decide_eq_true_eq] at hdirect
  exact hdirect.1.2

omit [DecidableEq Origin] in
theorem of_reservation {unattributed : Origin} {owner : ThreadRow} {delivery : Delivered}
    {row : ReservedInput Origin} (hok : reservation unattributed owner delivery = .ok row) :
    row.key = busKey delivery owner ∧ row.owner = owner.name ∧ row.goalReviews = .empty := by
  unfold reservation at hok
  dsimp only at hok
  split at hok <;> cases hok
  exact ⟨rfl, rfl, rfl⟩

namespace Standby

variable {digest : String → Digest} {unattributed : Origin} {call : Standby Origin Digest}
  {start world : World Origin Digest} {review : GoalInputReview Origin Digest}
  {wait : RecordedGoalWait} {delivery : Delivered} {goal : Goal} {edit : World Origin Digest}

/-- Every unresolved input of a direct message to the owner is stored under a name the owner
had at the capture. -/
def NamedAtCapture (digest : String → Digest) (call : Standby Origin Digest)
    (start : World Origin Digest) : Prop :=
  ∀ owner, start.registry.threadsFor call.incarnation = some owner →
    ∀ delivery ∈ (call.atBus digest start).bus.deliveries, delivery.directFor owner.birth = true →
      ∀ row, (call.atInputs digest start).inputs.lookup (.bus delivery.seq) = some row →
        row.state.unresolved = true → row.owner ∈ start.registry.namesFor owner.name

/-- What an accepted review captured, looked up and listed. -/
theorem review_eq_ok (hok : call.review digest unattributed start = .ok review) :
    start.registry.threadsFor call.incarnation = some review.owner ∧
      review.owners = start.registry.namesFor review.owner.name ∧
      review.throughSeq = (call.atBus digest start).bus.lastSeq ∧
      ∃ (goal : Goal) (found : List Delivered) (reserved : List (ReservedInput Origin))
        (document : InputDocument Origin Digest) (unknown : InputRows Origin Digest),
        review.owner.goal = some goal ∧
        (∃ older, found = replies (call.atBus digest start).bus review.owner.birth
          (reviewAfterSeq review.wait goal review.owner.birth
            (review.targets.map Incarnation.birth)) older
          (review.targets.map Incarnation.birth)) ∧
        found.mapM (reservation unattributed review.owner) = .ok reserved ∧
        ((call.atInputs digest start).inputs.select (InputDispositions.keyIn
          (found.map fun delivery => busKey delivery review.owner))).record reserved =
            .ok document ∧
        review.unknown = ((document.unknown review.owners).foldl
          (fun rows row => rows.set row.key row) unknown).values.mergeSort InputDocument.before ∧
        review.eligible = (document.unknown review.owners).map fun row => row.key := by
  simp only [Standby.review, GoalWaitReview.capture, requireActive, do_eq_ok, mapError_eq_ok] at hok
  obtain ⟨captured, ⟨owner, howner, rfl⟩, goal, ⟨_, hgoal, -, -, -, -, rfl⟩, targets, -,
    listed, -, reserved, hreserved, document, hdocument, rfl⟩ := hok
  exact ⟨howner, rfl, rfl, _, _, reserved, document, _, hgoal, ⟨_, rfl⟩, hreserved, hdocument,
    rfl, rfl⟩

/-! ### The publication -/

omit [DecidableEq Origin] [DecidableEq Digest] in
theorem changedGoal_id {changed : Goal} (hok : call.changedGoal goal = .ok changed) :
    changed.id = goal.id := by
  have hfields := Goals.Goal.make_eq_ok (mapError_eq_ok.mp hok)
  rw [hfields]

omit [DecidableEq Origin] [DecidableEq Digest] in
/-- The reviewed goal is the one the publication writes: a birth has one row. -/
theorem goal_of_current (hthread : edit.registry.requireThread call.name = .ok thread)
    (hbirth : thread.birth = review.owner.birth) (hcurrent : review.currentForInput edit = true) :
    thread.goal = review.owner.goal := by
  simp only [GoalInputReview.currentForInput, GoalWaitReview.stands, Bool.and_eq_true,
    Option.any_eq_true, decide_eq_true_eq] at hcurrent
  obtain ⟨⟨owner, howner, ⟨⟨hgoal, -⟩, -⟩, -⟩, -⟩ := hcurrent
  obtain ⟨hget, hownerBirth⟩ := RegistryCut.threadsFor_eq_some.mp howner
  rw [RegistryCut.requireThread, orRefuse_eq_ok] at hthread
  have hname := edit.registry.unique _ (Dict.mem_entries.mpr hthread) _ (Dict.mem_entries.mpr hget)
    (hbirth.trans hownerBirth.symm)
  dsimp only at hname
  rw [hname, hget] at hthread
  rw [← Option.some.inj hthread, hgoal]

/-- What an accepted publication checked and wrote. -/
theorem publish_eq_ok (hgoal : review.owner.goal = some goal)
    (hok : call.publish digest review edit = .ok (world, wait)) :
    ∃ reviewed answer observed decision, wait.goalId = goal.id ∧
      wait.owner = review.owner.birth ∧ wait.targets = review.targets.map Incarnation.birth ∧
      wait.afterSeq = review.throughSeq ∧
      (∀ row ∈ review.unknown, row.key ∈ review.eligible →
        row.key ∈ call.reviewedKeys review edit ∨ goal.id ∈ row.goalReviews) ∧
      InputDispositions.reviewForGoal (run (InputOp.step digest) call.beforeReview edit.inputs)
        (call.reviewedKeys review edit) review.owners goal.id decision observed =
          .ok (reviewed, answer) ∧
      world = { edit with
        inputs := run (InputOp.step digest) call.beforeRecord reviewed
        waits := edit.waits.record wait } := by
  simp only [publish, do_eq_ok, mapError_eq_ok, Prod.exists] at hok
  obtain ⟨thread, hthread, current, hcurrent, changed, hchanged, -, ⟨hbirth, hstands⟩, -, -, -, -,
    _, hpending, -, -, -, -, reviewed, answer, hreview, -, -, rfl, rfl⟩ := hok
  rw [goal_of_current hthread hbirth hstands, hgoal] at hcurrent
  cases hcurrent
  have hid := changedGoal_id hchanged
  refine ⟨reviewed, answer, _, _, hid, hbirth, rfl, rfl, ?_, hid ▸ hreview, rfl⟩
  intro row hrow heligible
  unfold requireNonePending at hpending
  split at hpending
  · cases hpending
  next hnone =>
    have hnot := List.find?_eq_none.mp hnone row hrow
    simp only [leftPending, heligible, decide_true, Bool.true_and, Bool.and_eq_true,
      decide_eq_true_eq, not_and_or, not_not, hid] at hnot
    exact hnot

section Reply

variable (hreview : call.review digest unattributed start = .ok review)
  (hgoal : review.owner.goal = some goal)
  (hmem : delivery ∈ (call.atBus digest start).bus.deliveries)
  (hdirect : delivery.directFor review.owner.birth = true)
  (hsender : delivery.senderLookup ∈ review.targets.map Incarnation.birth)
  (hafter : reviewAfterSeq review.wait goal review.owner.birth
    (review.targets.map Incarnation.birth) < delivery.seq)
include hreview hgoal hmem hdirect hsender hafter

/-- A reply of the snapshot after the cursor has a row. It is stored or a new reservation, and
the review lists it as eligible unless it is stored, and resolved or under another name. -/
theorem reply_of_review :
    ∃ row : StoredInput Origin Digest, row.key = .bus delivery.seq ∧
      ((call.atInputs digest start).inputs.lookup (.bus delivery.seq) = some row ∨
        row.goalReviews = .empty) ∧
      (row ∈ review.unknown ∧ row.key ∈ review.eligible ∨
        (call.atInputs digest start).inputs.lookup (.bus delivery.seq) = some row ∧
          (row.state.unresolved = false ∨ row.owner ∉ review.owners)) := by
  obtain ⟨howner, howners, -, goal', found, reserved, document, unknown, hgoal', ⟨older, hfound⟩,
    hreserved, hdocument, hunknown, heligible⟩ := review_eq_ok hreview
  cases hgoal.symm.trans hgoal'
  have hkey : busKey delivery review.owner = .bus delivery.seq := by
    rw [busKey, AudiencedMessage.responsePolicy_of_directFor hdirect]
  -- the loop reads the reply, so its key is looked up and a reservation is recorded for it
  have hreply : delivery ∈ found := hfound ▸ List.mem_append_right _
    (BusLog.mem_repliesAfter.mpr ⟨hmem, hdirect, .inr hsender, hafter⟩)
  have hlookedUp : InputKey.bus delivery.seq ∈
      found.map fun delivery => busKey delivery review.owner :=
    List.mem_map.mpr ⟨delivery, hreply, hkey⟩
  obtain ⟨original, horiginal, hreservation⟩ := (mem_of_mapM hreserved).2 delivery hreply
  obtain ⟨row, hrow⟩ := InputDocument.exists_of_record hdocument horiginal
  rw [(of_reservation hreservation).1, hkey] at hrow
  have hrowKey := InputDocument.key_of_lookup hrow
  -- an unresolved row under a captured name is listed
  have hlisted : row.state.unresolved = true → row.owner ∈ review.owners →
      row ∈ review.unknown ∧ row.key ∈ review.eligible := by
    intro hunresolved hnamed
    have hpending : row ∈ document.unknown review.owners :=
      InputDocument.mem_unknown.mpr ⟨hrowKey ▸ hrow, hunresolved, hnamed⟩
    constructor
    · rw [hunknown, List.mem_mergeSort, Dict.mem_values]
      exact ⟨row.key, InputDocument.get?_foldl_set_rows
        (fun other hother => (InputDocument.mem_unknown.mp hother).1) unknown hpending⟩
    · rw [heligible]
      exact List.mem_map_of_mem hpending
  refine ⟨row, hrowKey, ?_⟩
  rcases InputDocument.record_cases hdocument (.bus delivery.seq) with
    hsame | ⟨-, new, hnew, -, hget⟩
  · -- a stored row
    rw [hrow, InputDocument.lookup_select_keyIn, if_pos hlookedUp] at hsame
    refine ⟨.inl hsame.symm, ?_⟩
    cases hunresolved : row.state.unresolved with
    | false => exact .inr ⟨hsame.symm, .inl rfl⟩
    | true =>
      by_cases hnamed : row.owner ∈ review.owners
      · exact .inl (hlisted hunresolved hnamed)
      · exact .inr ⟨hsame.symm, .inr hnamed⟩
  · -- a new reservation is under the owner's own name
    cases hrow.symm.trans hget
    obtain ⟨source, -, hsource⟩ := (mem_of_mapM hreserved).1 new hnew
    obtain ⟨-, hownName, hreviews⟩ := of_reservation hsource
    refine ⟨.inr hreviews, .inl (hlisted rfl ?_)⟩
    rw [howners]
    have hself := RegistryCut.mem_namesFor howner
    exact hownName ▸ hself

/-- A reply that is listed or resolved at the read is settled when the wait is recorded. -/
theorem settled_of_perform
    (hpublish : call.publish digest review (call.atEdit digest start) = .ok (world, wait))
    (hnamed : call.NamedAtCapture digest start) :
    world.inputs.Settled (.bus delivery.seq) goal.id := by
  obtain ⟨reviewed, answer, observed, decision, -, -, -, -, hpending, hreviewed, rfl⟩ :=
    publish_eq_ok hgoal hpublish
  obtain ⟨howner, howners, -⟩ := review_eq_ok hreview
  -- what is settled at the read of the inputs stays so
  have hstays : (call.atInputs digest start).inputs.Settled (.bus delivery.seq) goal.id →
      reviewed.Settled (.bus delivery.seq) goal.id := by
    intro hread
    have hedit : (run (InputOp.step digest) call.beforeReview
        (call.atEdit digest start).inputs).Settled (.bus delivery.seq) goal.id :=
      (World.after_settled digest hread call.beforeEdit).run call.beforeReview
    have hstep : KeyStep digest (.reviewForGoal (call.reviewedKeys review (call.atEdit digest start))
        review.owners goal.id decision observed) (.bus delivery.seq) _ _ :=
      InputDispositions.keyStep_of_reviewForGoal hreviewed _
    exact hedit.keyStep hstep
  apply InputDocument.Settled.run
  obtain ⟨row, hkey, hsource, ⟨hunknown, heligible⟩ | ⟨hstored, hskipped⟩⟩ :=
    reply_of_review hreview hgoal hmem hdirect hsender hafter
  · rcases hpending row hunknown heligible with hnow | hbefore
    · exact InputDocument.settled_of_reviewForGoal hreviewed (hkey ▸ hnow)
    · rcases hsource with hstored | hnone
      · exact hstays ⟨row, hstored, .inr hbefore⟩
      · rw [hnone] at hbefore
        exact absurd hbefore (Dict.not_mem_empty _)
  · rcases hskipped with hresolved | hother
    · exact hstays ⟨row, hstored, .inl hresolved⟩
    · cases hunresolved : row.state.unresolved with
      | false => exact hstays ⟨row, hstored, .inl hunresolved⟩
      | true =>
        have hname := hnamed review.owner howner delivery hmem hdirect row hstored hunresolved
        exact absurd (howners ▸ hname) hother

end Reply

end Standby

/-! ### The release -/

namespace GoalWaitReview

variable {digest : String → Digest} {review self : GoalWaitReview}
  {permits : World Origin Digest → Bool} {note : String} {released : Released Origin Digest}

omit [DecidableEq Origin] [DecidableEq Digest] in
theorem wait_of_currentFor {edit : World Origin Digest} (hcurrent : review.currentFor edit = true) :
    ∃ wait, review.wait = some wait ∧ wait.owner = review.owner.birth ∧
      edit.waits.rows.get? wait.goalId = some wait := by
  simp only [currentFor, stands, currentGoal, Bool.and_eq_true, Option.any_eq_true,
    decide_eq_true_eq] at hcurrent
  obtain ⟨owner, howner, ⟨⟨⟨goal, hgoal, wait, hwait, hfor⟩, -⟩, hresolve⟩, -⟩ := hcurrent
  simp only [RecordedGoalWait.currentFor, Bool.and_eq_true, decide_eq_true_eq] at hfor
  obtain ⟨⟨hownedBy, hid⟩, -⟩ := hfor
  refine ⟨wait, hwait, hownedBy.trans (RegistryCut.threadsFor_eq_some.mp howner).2, ?_⟩
  rw [GoalWaits.resolve, hgoal, hwait, Option.bind_some, hid] at hresolve
  exact hresolve

end GoalWaitReview

/-- A reply in the log is found through the first row of the index. -/
theorem RecordedGoalWait.hasReply_of_matches {owner : Nat} {log : BusLog} {delivery : Delivered}
    (hmem : delivery ∈ log.deliveries) (hmatches : wait.matches delivery owner = true)
    : wait.hasReply log owner = true := by
  simp only [«matches», Bool.and_eq_true, decide_eq_true_eq] at hmatches
  obtain ⟨⟨⟨howner, hafter⟩, hdirect⟩, hsender⟩ := hmatches
  cases hpage : log.directReplies owner wait.afterSeq 1 wait.targets with
  | nil =>
    have hrow : delivery ∈ (log.replySource owner wait.targets).filter fun delivery =>
        wait.afterSeq < delivery.seq := by
      simp only [BusLog.replySource, List.mem_filter, BusLog.indexed_iff, decide_eq_true_eq]
      exact ⟨⟨hmem, hdirect, .inr hsender⟩, hafter⟩
    rw [(List.take_eq_nil_iff.mp hpage).resolve_left one_ne_zero] at hrow
    cases hrow
  | cons first =>
    -- every row of the index after the cursor matches
    have hfirst : first ∈ log.directReplies owner wait.afterSeq 1 wait.targets := by
      rw [hpage]
      exact List.mem_cons_self
    have hrow := List.mem_of_mem_take hfirst
    simp only [BusLog.replySource, List.mem_filter, BusLog.indexed_iff, decide_eq_true_eq] at hrow
    obtain ⟨⟨-, hfirstDirect, hfirstSender⟩, hfirstAfter⟩ := hrow
    have htarget : first.senderLookup ∈ wait.targets :=
      hfirstSender.resolve_left (List.ne_nil_of_mem hsender)
    simp only [hasReply, «matches», Bool.and_eq_true, decide_eq_true_eq, List.any_eq_true]
    exact ⟨howner, first, hfirst, ⟨⟨howner, hfirstAfter⟩, hfirstDirect⟩, htarget⟩

/-- Silence read without the lock, and nothing received since, is silence at the edit. -/
theorem silent_of_read {owner : Nat} {read edit : BusLog} (hgrows : read.Grows edit)
    (hsilent : wait.hasReply read owner = false)
    (hnothing : edit.receivedAfter owner read.lastSeq = false) :
    ∀ delivery ∈ edit.deliveries, wait.matches delivery owner = false := by
  intro delivery hmem
  by_contra hmatches
  rw [Bool.not_eq_false] at hmatches
  rcases hgrows.fresh delivery hmem with hread | hnew
  · rw [RecordedGoalWait.hasReply_of_matches hread hmatches] at hsilent
    cases hsilent
  · have hreceived : edit.receivedAfter owner read.lastSeq = true := by
      simp only [RecordedGoalWait.matches, AudiencedMessage.directFor, Bool.and_eq_true] at hmatches
      simp only [BusLog.receivedAfter, List.any_eq_true, Bool.and_eq_true, decide_eq_true_eq]
      exact ⟨delivery, hmem, hnew, hmatches.1.2.2⟩
    rw [hreceived] at hnothing
    cases hnothing

theorem GoalWaits.get?_consume {waits : GoalWaits}
    (hstored : waits.rows.get? wait.goalId = some wait) (goalId : String) :
    (waits.consume wait.goalId wait.waitId).rows.get? goalId =
      if goalId = wait.goalId then none else waits.rows.get? goalId := by
  rw [consume, keep, Dict.get?_filter]
  split
  next hgoal =>
    rw [hgoal, hstored]
    simp
  next hgoal => cases waits.rows.get? goalId <;> simp [hgoal]

/-- What a release did: the reviewed wait was there, the log was silent for it, and only its
row went. -/
structure Released.Unanswered (released : Released Origin Digest) (wait : RecordedGoalWait)
    (owner : Nat) : Prop where
  stored : released.commit.waits.rows.get? wait.goalId = some wait
  silent : ∀ delivery ∈ released.commit.bus.deliveries, wait.matches delivery owner = false
  bus : released.after.bus = released.commit.bus
  removed : released.after.waits.rows.get? wait.goalId = none
  others : ∀ goalId, goalId ≠ wait.goalId →
    released.after.waits.rows.get? goalId = released.commit.waits.rows.get? goalId

/-- Every round keeps the reviewed wait and the owner's incarnation, so the release that ends
the loop is of that wait. -/
theorem unanswered_of_publishUnanswered {digest : String → Digest} {self review : GoalWaitReview}
    {permits : World Origin Digest → Bool} {note : String} {rounds : List (Round Origin Digest)}
    {start : World Origin Digest} (hwait : review.wait = self.wait)
    (hbirth : review.owner.birth = self.owner.birth)
    (hreleased : publishUnanswered digest self permits note review rounds start = some released) :
    ∃ wait, self.wait = some wait ∧ released.Unanswered wait self.owner.birth := by
  induction rounds generalizing review start with
  | nil => cases hreleased
  | cons round rounds ih =>
    simp only [publishUnanswered] at hreleased
    split at hreleased
    · cases hreleased
    next hsilent =>
    split at hreleased
    next hcurrent =>
      split at hreleased
      · exact ih hwait hbirth hreleased
      next hnothing =>
      split at hreleased
      · obtain ⟨wait, hreviewed, howner, hstored⟩ := GoalWaitReview.wait_of_currentFor hcurrent
        have hself : self.wait = some wait := hwait ▸ hreviewed
        rw [hself, Option.any_some, Bool.not_eq_true] at hsilent
        rw [Bool.not_eq_true] at hnothing
        simp only [releaseReviewedWait, hself, Option.bind_eq_bind, Option.bind_eq_some_iff,
          Option.some.injEq] at hreleased
        obtain ⟨owner, -, goal, -, _, rfl, noted, -, hreleased⟩ := hreleased
        split at hreleased
        · cases hreleased
          refine ⟨_, hself, hstored, ?_, rfl, ?_, ?_⟩
          · exact silent_of_read (World.after_bus digest _ round.beforeEdit) hsilent hnothing
          · exact (GoalWaits.get?_consume hstored _).trans (if_pos rfl)
          · intro goalId hother
            exact (GoalWaits.get?_consume hstored _).trans (if_neg hother)
        · cases hreleased
      · cases hreleased
    · split at hreleased
      next captured hcaptured =>
        split at hreleased
        next hsame =>
          refine ih hsame.1 ?_ hreleased
          simp only [GoalWaitReview.capture, do_eq_ok] at hcaptured
          obtain ⟨owner, howner, rfl⟩ := hcaptured
          exact (RegistryCut.threadsFor_eq_some.mp howner).2
        · cases hreleased
      · cases hreleased

/-- When a standby records its wait, every direct message from its targets since the goal's
cursor is settled for the goal or matched by the wait, if unresolved inputs are stored
under the names of the capture; and a wait is released as unanswered only if the log of
the commit holds no reply to it, and then exactly the reviewed wait is removed. -/
theorem wait_loses_no_reply (digest : String → Digest) (unattributed : Origin) :
    (∀ (call : Standby Origin Digest) (start world : World Origin Digest)
        (review : GoalInputReview Origin Digest) (wait : RecordedGoalWait),
      call.NamedAtCapture digest start →
      call.perform digest unattributed start = .ok (review, world, wait) →
      ∃ goal, review.owner.goal = some goal ∧ wait.goalId = goal.id ∧
        world.waits.rows.get? goal.id = some wait ∧
        ∀ delivery ∈ world.bus.deliveries, delivery.directFor wait.owner = true →
          delivery.senderLookup ∈ wait.targets →
          reviewAfterSeq review.wait goal wait.owner wait.targets < delivery.seq →
          delivery ∈ (call.atBus digest start).bus.deliveries ∧
              world.inputs.Settled (.bus delivery.seq) goal.id ∨
            wait.matches delivery wait.owner = true) ∧
    ∀ (self : GoalWaitReview) (permits : World Origin Digest → Bool) (note : String)
        (rounds : List (Round Origin Digest)) (start : World Origin Digest)
        (released : Released Origin Digest),
      publishUnanswered digest self permits note self rounds start = some released →
      ∃ wait, self.wait = some wait ∧ released.Unanswered wait self.owner.birth := by
  refine ⟨?_, fun self permits note rounds start released hreleased =>
    unanswered_of_publishUnanswered rfl rfl hreleased⟩
  intro call start world review wait hnamed hok
  simp only [Standby.perform, do_eq_ok, Prod.exists] at hok
  obtain ⟨_, hreview, _, _, hpublish, rfl, rfl, rfl⟩ := hok
  obtain ⟨-, -, hthrough, goal, _, _, _, _, hgoal, -⟩ := Standby.review_eq_ok hreview
  obtain ⟨_, _, _, _, hid, howner, htargets, hcursor, -, -, hworld⟩ :=
    Standby.publish_eq_ok hgoal hpublish
  refine ⟨goal, hgoal, hid, ?_, ?_⟩
  · rw [hworld, ← hid]
    exact Dict.get?_set_self _ _ _
  intro delivery hmem hdirect hsender hafter
  rw [hworld] at hmem
  have hgrows : (call.atBus digest start).bus.Grows (call.atEdit digest start).bus :=
    (World.after_bus digest _ call.beforeInputs).trans (World.after_bus digest _ call.beforeEdit)
  rcases hgrows.fresh delivery hmem with hcut | hnew
  · rw [howner] at hdirect
    rw [htargets] at hsender
    rw [howner, htargets] at hafter
    exact .inl ⟨hcut, Standby.settled_of_perform hreview hgoal hcut hdirect hsender hafter hpublish
      hnamed⟩
  · right
    rw [← hthrough, ← hcursor] at hnew
    simp only [RecordedGoalWait.matches, hdirect, hsender, hnew, decide_true, Bool.and_self]

def dependentGoal : Goal where
  text := "wait"
  id := "goal"
  publishedSeq := 0
  progress := ""
  revision := 1
  reportedTurn := none
  state := .active
  order := .unordered
  accepted := by
    have hblank : blank "wait" = false := by decide +kernel
    simp [Goals.GoalFields.check, require, hblank, bind, Except.bind]

def waitingThread (name : String) : ThreadRow :=
  ⟨name, 1, some dependentGoal, none, 1, 0⟩

def waitingRegistry : RegistryCut where
  threads := (Dict.empty.set "owner" (waitingThread "owner")).set "helper"
    ⟨"helper", 2, none, none, 1, 0⟩
  aliases := .empty
  keyed := by decide +kernel
  unique := by decide +kernel
  unaliased := by decide +kernel

def renamedRegistry : RegistryCut where
  threads := (Dict.empty.set "renamed" (waitingThread "renamed")).set "helper"
    ⟨"helper", 2, none, none, 1, 0⟩
  aliases := Dict.empty.set "owner" "renamed"
  keyed := by decide +kernel
  unique := by decide +kernel
  unaliased := by decide +kernel

def helperReply (name : String) : AudiencedMessage :=
  ⟨"helper", 2, .thread name, true, false, [], [⟨1, name⟩], "done"⟩

def replyReservation (name : String) (hname : name ≠ "") : ReservedInput Unit where
  key := .bus 1
  sequence := some 1
  owner := name
  claimGeneration := 1
  target := name
  sourceText := "done"
  origin := ()
  accepted := by simp [OriginalFields.check, InputKey.requireSequence, hname]
  noticeDismissed := false
  goalReviews := .empty

def waitingWorld : World Unit String := ⟨.empty, waitingRegistry, .empty, .empty⟩

/-- A standby for the helper, while others act before its first read. -/
def standbyWhile (name : String) (reviewedInputs : List InputKey)
    (events : List (WorldEvent Unit String)) : Standby Unit String where
  incarnation := ⟨"owner", 1⟩
  name := name
  goalId := "goal"
  waitFor := ["helper"]
  reviewedInputs := reviewedInputs
  attempted := []
  progress := none
  reportedTurn := none
  modelReport := false
  waitId := "wait"
  answersLater := true
  closedGroup := []
  beforeUnresolved := events
  beforeBus := []
  beforeInputs := []
  beforeEdit := [.publish (.initial (helperReply name))]
  beforeReview := []
  beforeRecord := []

def reviewedStandby : Standby Unit String :=
  standbyWhile "owner" [.bus 1] [.publish (.initial (helperReply "owner")),
    .input (.recordOriginals [replyReservation "owner" (by decide)])]

/-- The owner is renamed after the capture, and the reply is reserved under the new name. -/
def renamedStandby : Standby Unit String :=
  standbyWhile "renamed" [] [.edit renamedRegistry, .publish (.initial (helperReply "renamed")),
    .input (.recordOriginals [replyReservation "renamed" (by decide)])]

theorem reviewedStandby_named : reviewedStandby.NamedAtCapture id waitingWorld := by
  have hnames : ∀ row ∈ (reviewedStandby.atInputs id waitingWorld).inputs.rows.values,
      row.owner ∈ waitingRegistry.namesFor "owner" := by
    decide +kernel
  intro owner howner delivery _ _ row hrow _
  have hthread : waitingRegistry.threadsFor ⟨"owner", 1⟩ = some (waitingThread "owner") := by
    decide +kernel
  cases hthread.symm.trans howner
  exact hnames row (Dict.mem_values.mpr ⟨_, hrow⟩)

def silentWorld : World Unit String :=
  { waitingWorld with waits := GoalWaits.empty.record ⟨"goal", "wait", 1, 0, [2], 1, [none], none⟩ }

theorem wait_loses_no_reply_reviewed :
    (∃ review world wait,
      reviewedStandby.perform id () waitingWorld = .ok (review, world, wait) ∧
      world.bus.deliveries.length = 2 ∧
      ∃ goal, review.owner.goal = some goal ∧ wait.goalId = goal.id ∧
        world.waits.rows.get? goal.id = some wait ∧
        ∀ delivery ∈ world.bus.deliveries, delivery.directFor wait.owner = true →
          delivery.senderLookup ∈ wait.targets →
          reviewAfterSeq review.wait goal wait.owner wait.targets < delivery.seq →
          delivery ∈ (reviewedStandby.atBus id waitingWorld).bus.deliveries ∧
              world.inputs.Settled (.bus delivery.seq) goal.id ∨
            wait.matches delivery wait.owner = true) ∧
    ∃ self released,
      GoalWaitReview.capture silentWorld ⟨"owner", 1⟩ = .ok self ∧
      publishUnanswered id self (fun _ => true) "released" self [⟨[.appendOther], []⟩] silentWorld =
        some released ∧
      ∃ wait, self.wait = some wait ∧ released.Unanswered wait self.owner.birth := by
  constructor
  · have hrun : (fun result : GoalInputReview Unit String × World Unit String × RecordedGoalWait =>
        result.2.1.bus.deliveries.length) <$> reviewedStandby.perform id () waitingWorld = .ok 2 := by
      decide +kernel
    obtain ⟨⟨review, world, wait⟩, hok, hlength⟩ := map_eq_ok.mp hrun
    exact ⟨review, world, wait, hok, hlength,
      (wait_loses_no_reply id ()).1 reviewedStandby waitingWorld world review wait
        reviewedStandby_named hok⟩
  · have hrun : (fun self => (publishUnanswered id self (fun _ => true) "released" self
        [⟨[.appendOther], []⟩] silentWorld).isSome) <$>
          GoalWaitReview.capture silentWorld ⟨"owner", 1⟩ = .ok true := by
      decide +kernel
    obtain ⟨self, hcaptured, hsome⟩ := map_eq_ok.mp hrun
    obtain ⟨released, hreleased⟩ := Option.isSome_iff_exists.mp hsome
    exact ⟨self, released, hcaptured, hreleased,
      (wait_loses_no_reply id ()).2 self (fun _ => true) "released" [⟨[.appendOther], []⟩]
        silentWorld released hreleased⟩

/-- A direct message from a target, after the cursor, that the recorded wait does not match
and whose input is neither started, cleared nor reviewed for the goal. -/
def LosesReply (review : GoalInputReview Unit String) (world : World Unit String)
    (wait : RecordedGoalWait) : Prop :=
  ∃ delivery ∈ world.bus.deliveries, delivery.directFor wait.owner = true ∧
    delivery.senderLookup ∈ wait.targets ∧
    reviewAfterSeq review.wait dependentGoal wait.owner wait.targets < delivery.seq ∧
    ¬ world.inputs.Settled (.bus delivery.seq) wait.goalId ∧
    wait.matches delivery wait.owner = false

instance (review : GoalInputReview Unit String) (world : World Unit String)
    (wait : RecordedGoalWait) : Decidable (LosesReply review world wait) :=
  inferInstanceAs (Decidable (∃ delivery ∈ world.bus.deliveries, _))

/-- The review looks for the old name, so the wait starts after a reply that is still pending. -/
theorem renamed_owner_loses_reply :
    ∃ review world wait, renamedStandby.perform id () waitingWorld = .ok (review, world, wait) ∧
      review.owner.goal = some dependentGoal ∧ LosesReply review world wait := by
  have hrun : ∃ result, renamedStandby.perform id () waitingWorld = .ok result ∧
      result.1.owner.goal = some dependentGoal ∧ LosesReply result.1 result.2.1 result.2.2 :=
    exists_ok_of_decide (by decide +kernel)
  obtain ⟨⟨review, world, wait⟩, hok, hlost⟩ := hrun
  exact ⟨review, world, wait, hok, hlost⟩

end AgentComms.Waits
