import AgentComms.Coordination.Coherence

/-!
# What one transaction does

Every committed operation either writes for at most one execution without starting
an attempt, or starts the next attempt of one execution; in both cases the
execution it wrote for can be read afterwards.
-/

namespace AgentComms.Coordination

open Library Relation

structure Started (witnessed : PublicationEvidence → Prop) (executionId : ExecutionId)
    (ordinal : Nat) (before after : Store) : Prop where
  evolves : Evolves (some executionId) witnessed before after
  next : ordinal = (before.currentOrdinal executionId).getD 0 + 1
  retry : 1 < ordinal → before.retryBasis executionId = true
  keys : ∀ k, (after.attempts.get? k).isSome = true ↔
    k = (executionId, ordinal) ∨ (before.attempts.get? k).isSome = true
  current : after.currentOrdinal executionId = some ordinal
  others : ∀ other, other ≠ executionId → after.currentOrdinal other = before.currentOrdinal other

inductive Transition (witnessed : PublicationEvidence → Prop) (before after : Store) : Prop
  | wrote (own : Option ExecutionId) (hwrites : Writes own witnessed before after)
      (hcoherent : ∀ executionId, own = some executionId →
        before.Coherent executionId → after.Coherent executionId)
  | started (executionId : ExecutionId) (ordinal : Nat)
      (hstarted : Started witnessed executionId ordinal before after)
      (hcoherent : after.Coherent executionId)

variable {own : Option ExecutionId} {witnessed : PublicationEvidence → Prop}
  {store store' : Store} {executionId : ExecutionId} {snapshot : RecoverySnapshot}

/-- Writes outside the rows of any execution. -/
theorem Transition.outside (hwrites : Writes none witnessed store store') :
    Transition witnessed store store' :=
  .wrote none hwrites nofun

def Unasked (before after : Store) : Prop :=
  ∀ k claim, after.wakeClaims.get? k = some claim → claim.lifecycle.isPending = true →
    before.wakeClaims.get? k = some claim ∨ before.wakeClaims.get? k = none

theorem Evolves.unasked (hevolves : Evolves (some executionId) witnessed store store') :
    Unasked store store' := by
  intro k claim hget hpending
  rcases hevolves.wakeClaims.reached hget with hsame | hnone | hother
  · exact .inl hsame
  · cases hnone
  · rw [hother] at hpending
    cases hpending

structure Committed (witnessed : PublicationEvidence → Prop) (before after : Store) : Prop where
  transition : Transition witnessed before after
  unasked : Unasked before after

namespace Committed

theorem outside (hwrites : Writes none witnessed store store')
    (hclaims : store'.wakeClaims = store.wakeClaims) : Committed witnessed store store' :=
  ⟨.outside hwrites, fun _ _ hget _ => .inl (hclaims ▸ hget)⟩

theorem refl (store : Store) : Committed witnessed store store := outside (Writes.refl store) rfl

theorem wrote (hwrites : Writes (some executionId) witnessed store store')
    (hcoherent : store.Coherent executionId → store'.Coherent executionId) :
    Committed witnessed store store' :=
  ⟨.wrote (some executionId) hwrites fun _ hown => Option.some.inj hown ▸ hcoherent,
    hwrites.toEvolves.unasked⟩

theorem of_get (hwrites : Writes (some executionId) witnessed store store')
    (hget : store'.get executionId = .ok snapshot) : Committed witnessed store store' :=
  wrote hwrites fun _ _ => ⟨snapshot, hget⟩

theorem started {ordinal : Nat} (hstarted : Started witnessed executionId ordinal store store')
    (hcoherent : store'.Coherent executionId) : Committed witnessed store store' :=
  ⟨.started executionId ordinal hstarted hcoherent, hstarted.evolves.unasked⟩

end Committed

theorem Store.writing_eq_ok {α : Type} {body : Store → Checked (Store × α)}
    {written : Store × α} :
    writing body store = .ok written ↔ body store = .ok written ∧ written.1.ForeignKeys := by
  simp only [writing, do_eq_ok, exists_const]
  constructor
  · rintro ⟨_, hbody, hkeys, rfl⟩
    exact ⟨hbody, hkeys⟩
  · rintro ⟨hbody, hkeys⟩
    exact ⟨_, hbody, hkeys, rfl⟩

theorem Started.trans {ordinal : Nat} {before middle after : Store}
    (hstarted : Started witnessed executionId ordinal before middle)
    (hwrites : Writes (some executionId) witnessed middle after) :
    Started witnessed executionId ordinal before after where
  evolves := hstarted.evolves.trans hwrites.toEvolves
  next := hstarted.next
  retry := hstarted.retry
  keys := fun k => by rw [hwrites.keys, hstarted.keys]
  current := (hwrites.ordinals executionId).trans hstarted.current
  others := fun other hother => (hwrites.ordinals other).trans (hstarted.others other hother)

/-- A pointer that was idle or here stays idle or here. -/
theorem Evolves.pointer_within {before after : Store} (hevolves : Evolves own witnessed before after)
    {lookup : ThreadLookup}
    (hbefore : ∀ pointer, before.currentExecutions.get? lookup = some pointer →
      pointer.Within own) :
    ∀ pointer, after.currentExecutions.get? lookup = some pointer → pointer.Within own := by
  intro pointer hget
  rcases hevolves.currentExecutions.reached hget with hsame | hwithin
  · exact hbefore pointer hsame
  · exact hwithin

/-! ### Claims and obligations of a snapshot -/

theorem AssignmentState.not_pending_of_kind {state : AssignmentState} {kind : AssignmentKind}
    (hkind : state.kind = kind) (hout : kind ≠ .triagePending ∧ kind ≠ .fullPending) :
    state.isPending = false := by
  rw [isPending, hkind, Bool.or_eq_false_iff, beq_eq_false_iff_ne, beq_eq_false_iff_ne]
  exact hout

theorem AssignmentKind.kind_of_build {disposition : AssignmentKind} {mode : WakePolicy}
    {executionId exactTarget : Option String} {after : AssignmentState}
    (hok : disposition.build mode executionId exactTarget = .ok after) :
    after.kind = disposition := by
  cases disposition
  case passive | triagePending | fullPending | ignored =>
    cases hok
    rfl
  all_goals
    obtain ⟨_, -, rfl⟩ := map_eq_ok.mp hok
    rfl

/-- A built state is unbound or bound to the given execution. -/
theorem AssignmentKind.executionId_of_build {kind : AssignmentKind} {mode : WakePolicy}
    {target : Option String} {lifecycle : AssignmentState}
    (hok : kind.build mode own target = .ok lifecycle) :
    lifecycle.executionId = none ∨ lifecycle.executionId = own := by
  have hengage : ∀ {engagement}, mode.engage own target = .ok engagement →
      some engagement.executionId = own := by
    intro engagement hengage
    unfold WakePolicy.engage at hengage
    split at hengage
    · cases hengage
    · split at hengage
      next hbound =>
        cases hengage
        cases own with
        | none => exact absurd rfl hbound.1
        | some => rfl
      · cases hengage
  cases kind <;> simp only [build, build.interrupted, map_eq_ok] at hok
  case passive | triagePending | fullPending | ignored =>
    cases hok
    exact .inl rfl
  case delivered =>
    obtain ⟨_, -, rfl⟩ := hok
    exact .inl rfl
  case engaged | completed =>
    obtain ⟨engagement, hok, rfl⟩ := hok
    exact .inr (hengage hok)
  case deferred | failed =>
    obtain ⟨decision, hok, rfl⟩ := hok
    split at hok
    · obtain ⟨_, -, rfl⟩ := map_eq_ok.mp hok
      exact .inl rfl
    · obtain ⟨engagement, hengaged, rfl⟩ := map_eq_ok.mp hok
      exact .inr (hengage hengaged)

namespace RecoverySnapshot

variable {clock : Clock} {release : Checked Unit}

theorem updateObligations_writes {response : ResponseState} {reasonCode : ReasonCode}
    (hok : snapshot.updateObligations clock response reasonCode store = .ok store') :
    Writes (some snapshot.execution.executionId) witnessed store store' :=
  .of_foldlM (fun _ _ _ _ hstep => Store.updateObligation_writes hstep) hok

theorem updateAssignments_writes {kind : AssignmentKind}
    {selects : WakeAssignment → WakeAssignment → Bool} (hconsistent : snapshot.Consistent)
    (hkind : kind ≠ .triagePending ∧ kind ≠ .fullPending)
    (hok : snapshot.updateAssignments clock kind selects store = .ok store') :
    Writes (some snapshot.execution.executionId) witnessed store store' := by
  refine .of_foldlM (fun assignment hmem middle after hstep => ?_) hok
  rw [bind_eq_ok] at hstep
  obtain ⟨lifecycle, hbuild, hupdate⟩ := hstep
  rw [hconsistent.bound assignment hmem] at hbuild
  exact Store.updateWakeClaim_writes hupdate (AssignmentKind.executionId_of_build hbuild)
    (.inr (AssignmentState.not_pending_of_kind (AssignmentKind.kind_of_build hbuild) hkind))

/-! ### Settlement and completion -/

theorem disposition_kind_ne_active {outcome : Outcome} {attempt : AttemptRecord}
    {executionState : ExecutionState} {response : ResponseState}
    (hok : outcome.disposition snapshot attempt = .ok (executionState, response)) :
    executionState.kind ≠ .active := by
  cases outcome with
  | succeeded =>
    simp only [Outcome.disposition, do_eq_ok, exists_const] at hok
    obtain ⟨-, -, rfl, -⟩ := hok
    exact nofun
  | attemptFailed =>
    simp only [Outcome.disposition] at hok
    split at hok <;> cases hok <;> exact nofun
  | unknownOutcome =>
    cases hok
    exact nofun

theorem settle_writes {outcome : Outcome} {reasonCode : ReasonCode}
    (hget : store.get executionId = .ok snapshot)
    (hok : snapshot.settle clock outcome reasonCode release store = .ok store') :
    Writes (some executionId) witnessed store store' := by
  obtain ⟨hread, hconsistent⟩ := Store.get_eq_ok.mp hget
  simp only [settle, beginSettlement, do_eq_ok, exists_const, hread.executionId_eq,
    Option.filter_eq_some_iff, Bool.and_eq_true] at hok
  obtain ⟨⟨_, executionState, response, _⟩, ⟨-, attempt, ⟨-, ⟨hcurrent, -⟩, -⟩, s₁, hreplay, _,
    hdisposition, -, -, s₂, hattempt, rfl, rfl, rfl, rfl⟩, s₃, hexecution, s₄, hobligations, s₅,
    hassignments, hpointer⟩ := hok
  have hsettled : Writes (some executionId) witnessed store s₅ := by
    have h₁ : Writes (some executionId) witnessed store s₁ :=
      (Store.accumulate_assessed hreplay).writes
    have h₂ := h₁.trans (Store.updateAttempt_writes hattempt)
    have h₃ := h₂.trans (Store.updateExecution_writes hexecution
      fun _ => disposition_kind_ne_active hdisposition)
    rw [← hread.executionId_eq] at h₃ ⊢
    exact (h₃.trans (updateObligations_writes hobligations)).trans
      (updateAssignments_writes hconsistent
        (by generalize ExecutionState.kind _ = kind; cases kind <;> simp [ExecutionKind.assignmentState])
        hassignments)
  have hwithin := hsettled.toEvolves.pointer_within fun pointer hget => by
    obtain ⟨pointer', hget', hid, -, -⟩ := hread.pointer
    rw [hget', Option.some.injEq] at hget
    rw [hread.isCurrent, beq_iff_eq, hid] at hcurrent
    exact .inr (hget ▸ hcurrent)
  exact hsettled.trans (Store.updateCurrentExecution_writes hpointer (.inl rfl)
    fun pointer hget _ => hwithin pointer hget)

theorem completeAttempt_writes (hget : store.get executionId = .ok snapshot)
    (hok : snapshot.completeAttempt clock release store = .ok store') :
    Writes (some executionId) witnessed store store' := by
  obtain ⟨hread, hconsistent⟩ := Store.get_eq_ok.mp hget
  simp only [completeAttempt, bind_eq_ok, hread.executionId_eq] at hok
  obtain ⟨attempt, -, -, -, s₁, hattempt, s₂, hexecution, s₃, hassignments, hpointer⟩ := hok
  have h₁ : Writes (some executionId) witnessed store s₁ := Store.updateAttempt_writes hattempt
  have h₂ := h₁.trans (Store.updateExecution_writes hexecution (by simp [ExecutionState.kind]))
  have h₃ : Writes (some executionId) witnessed s₂ s₃ :=
    hread.executionId_eq ▸ updateAssignments_writes hconsistent ⟨by simp, by simp⟩ hassignments
  exact (h₂.trans h₃).trans (Store.updateCurrentExecution_writes hpointer (.inl rfl)
    fun pointer _ hselects => .inr (beq_iff_eq.mp (Bool.and_eq_true_iff.mp hselects).2))

end RecoverySnapshot

/-! ### Participants and unbound claims -/

namespace Store

variable {lookup ownerLookup : ThreadLookup} {result : RecoverySnapshot} {clock : Clock}
  {expectedRevision expectedPointerRevision : Nat} {sources : List SelectedSource}
  {reasonCode : ReasonCode} {request : AttemptStart} {fence : OwnerFence} {attempt : AttemptRecord}
  {release : Checked Unit} {failure : Option TurnFailure}
  {evidence : MonitorEvidence} {boundary : ResponseBoundary} {exactTarget : String}
  {obligation : ResponseObligation} {intent : PublicationIntent}

theorem register_writes {committed : Bool} {result : Applied ParticipantSnapshot}
    (hok : register lookup committed store = .ok (store', result)) :
    store'.wakeClaims = store.wakeClaims ∧ Writes none witnessed store store' := by
  obtain ⟨hok, -⟩ := writing_eq_ok.mp hok
  split at hok
  · simp only [do_eq_ok] at hok
    obtain ⟨_, -, rfl, -⟩ := hok
    exact ⟨rfl, .refl _⟩
  · simp only [do_eq_ok] at hok
    obtain ⟨s₁, hperson, s₂, hgeneration, s₃, hpointer, _, -, rfl, -⟩ := hok
    refine ⟨?_, ((insertParticipant_writes hperson).trans
      (insertOwnerGeneration_writes hgeneration)).trans
        (insertCurrentExecution_writes hpointer rfl)⟩
    simp only [insertParticipant, insertOwnerGeneration, insertCurrentExecution, do_eq_ok]
      at hperson hgeneration hpointer
    obtain ⟨_, -, rfl⟩ := hperson
    obtain ⟨_, -, _, -, rfl⟩ := hgeneration
    obtain ⟨_, -, _, -, rfl⟩ := hpointer
    rfl

theorem commit_writes {result : Applied ParticipantSnapshot}
    (hok : commit lookup store = .ok (store', result)) :
    store'.wakeClaims = store.wakeClaims ∧ Writes none witnessed store store' := by
  obtain ⟨hok, -⟩ := writing_eq_ok.mp hok
  obtain ⟨person, -, hok⟩ := bind_eq_ok.mp hok
  unfold commitUncommitted at hok
  split at hok
  · cases hok
    exact ⟨rfl, .refl _⟩
  · simp only [do_eq_ok] at hok
    obtain ⟨_, hcommit, _, -, rfl, -⟩ := hok
    refine ⟨?_, commitParticipant_writes hcommit⟩
    simp only [commitParticipant, do_eq_ok] at hcommit
    obtain ⟨_, -, rfl⟩ := hcommit
    rfl

theorem advanceGeneration_committed {expected : Nat} {result : ParticipantSnapshot}
    (hok : advanceGeneration lookup expected store = .ok (store', result)) :
    Committed witnessed store store' := by
  obtain ⟨hok, -⟩ := writing_eq_ok.mp hok
  simp only [do_eq_ok] at hok
  obtain ⟨_, -, _, -, _, -, _, hadvance, _, -, rfl, -⟩ := hok
  refine .outside (advanceOwnerGeneration_writes hadvance) ?_
  simp only [advanceOwnerGeneration, do_eq_ok] at hadvance
  obtain ⟨_, -, _, -, rfl⟩ := hadvance
  rfl

theorem insertWakeClaim_unasked {row : WakeAssignment}
    (hok : store.insertWakeClaim row = .ok store') : Unasked store store' := by
  simp only [insertWakeClaim, do_eq_ok, accepted_eq_ok] at hok
  obtain ⟨_, -, table, hinsert, rfl⟩ := hok
  have hinserted := Table.inserted_of_insert? hinsert
  intro k claim hget _
  rcases hinserted.get?_cases hget with ⟨rfl, rfl⟩ | hold
  · exact .inr hinserted.fresh
  · exact .inl hold

theorem accept_committed {assignment : WakeAssignment} {result : Applied WakeAssignment}
    (hok : accept assignment store = .ok (store', result)) : Committed witnessed store store' := by
  obtain ⟨hok, -⟩ := writing_eq_ok.mp hok
  obtain ⟨_, -, hok⟩ := bind_eq_ok.mp hok
  split at hok
  · simp only [do_eq_ok] at hok
    obtain ⟨_, -, rfl, -⟩ := hok
    exact .refl _
  · simp only [do_eq_ok] at hok
    obtain ⟨_, hinsert, rfl, -⟩ := hok
    exact ⟨.outside (insertWakeClaim_writes hinsert), insertWakeClaim_unasked hinsert⟩

theorem executionId_of_preengagement {state after : AssignmentState} {kind : AssignmentKind}
    (hok : state.preengagement kind = .ok after) : after.executionId = none := by
  simp only [AssignmentState.preengagement, do_eq_ok] at hok
  obtain ⟨_, -, _, hbuild, _, -, rfl⟩ := hok
  unfold AssignmentKind.buildPreengagement at hbuild
  split at hbuild
  case h_1 | h_2 | h_3 => cases hbuild
  all_goals exact (AssignmentKind.executionId_of_build hbuild).elim id id

theorem transitionIn_writes {clock : Clock} {assignmentId : AssignmentId}
    {disposition : AssignmentKind} {expectedRevision : Nat} {after : WakeAssignment}
    (hok : store.transitionIn clock assignmentId disposition expectedRevision =
      .ok (store', after)) : Writes none witnessed store store' := by
  simp only [transitionIn, do_eq_ok] at hok
  obtain ⟨_, -, _, -, _, hlifecycle, _, hupdate, rfl, -⟩ := hok
  exact updateWakeClaim_writes hupdate (.inl (executionId_of_preengagement hlifecycle)) (.inl rfl)

/-! ### Executions before their first attempt -/

theorem engageSource_writes {member : (SelectedSource × WakeAssignment) × Nat}
    (hok : engageSource clock executionId ownerLookup store member = .ok store') :
    Writes (some executionId) witnessed store store' := by
  simp only [engageSource, bind_eq_ok] at hok
  obtain ⟨_, -, _, -, decision, hbuild, _, -, _, hupdate, hlink⟩ := hok
  exact (updateWakeClaim_writes hupdate (AssignmentKind.executionId_of_build hbuild)
    (.inr (AssignmentState.not_pending_of_kind (AssignmentKind.kind_of_build hbuild) (by simp)))).trans
    (insertExecutionClaim_writes hlink rfl)

theorem createNew_committed {origin : Origin} {maxAttempts : Nat}
    {assignments : List WakeAssignment} {result : Applied RecoverySnapshot}
    (hok : createNew clock executionId origin ownerLookup maxAttempts sources assignments store =
      .ok (store', result)) : Committed witnessed store store' := by
  simp only [createNew, do_eq_ok] at hok
  obtain ⟨_, -, _, -, _, -, _, -, s₁, hexecution, s₂, hengage, s₃, hobligations, snapshot, hget,
    rfl, -⟩ := hok
  have h₁ : Writes (some executionId) witnessed store s₁ := insertExecution_writes hexecution rfl rfl
  have h₂ := h₁.trans (.of_foldlM (fun _ _ _ _ hstep => engageSource_writes hstep) hengage)
  exact .of_get (h₂.trans (.of_foldlM (fun _ _ _ _ hstep => insertObligation_writes hstep rfl)
    hobligations)) hget

theorem create_committed {origin : Origin} {maxAttempts : Nat} {result : Applied RecoverySnapshot}
    (hok : create clock executionId origin ownerLookup maxAttempts sources store =
      .ok (store', result)) : Committed witnessed store store' := by
  obtain ⟨hok, -⟩ := writing_eq_ok.mp hok
  obtain ⟨_, -, hok⟩ := bind_eq_ok.mp hok
  obtain ⟨_, -, hok⟩ := bind_eq_ok.mp hok
  split at hok
  · simp only [do_eq_ok] at hok
    obtain ⟨_, -, _, -, rfl, -⟩ := hok
    exact .refl _
  · exact createNew_committed hok

theorem markPending_committed
    (hok : markPending clock executionId expectedRevision store = .ok (store', result)) :
    Committed witnessed store store' := by
  obtain ⟨hok, -⟩ := writing_eq_ok.mp hok
  simp only [do_eq_ok] at hok
  obtain ⟨_, -, _, -, _, -, _, hupdate, after, hget, rfl, -⟩ := hok
  exact .of_get (updateExecution_writes hupdate nofun) hget

theorem failUnstarted_committed {reasonCode : String}
    (hok : failUnstarted clock executionId expectedRevision reasonCode store =
      .ok (store', result)) : Committed witnessed store store' := by
  obtain ⟨hok, -⟩ := writing_eq_ok.mp hok
  simp only [do_eq_ok] at hok
  obtain ⟨before, hbefore, _, -, _, -, s₁, hexecution, s₂, hobligations, s₃, hassignments, after,
    hget, rfl, -⟩ := hok
  obtain ⟨hread, hconsistent⟩ := get_eq_ok.mp hbefore
  have h₁ : Writes (some executionId) witnessed store s₁ :=
    updateExecution_writes hexecution nofun
  have h₂ : Writes (some executionId) witnessed s₁ s₂ :=
    hread.executionId_eq ▸ RecoverySnapshot.updateObligations_writes hobligations
  have h₃ : Writes (some executionId) witnessed s₂ s₃ := hread.executionId_eq ▸
      RecoverySnapshot.updateAssignments_writes hconsistent ⟨by simp, by simp⟩ hassignments
  exact .of_get ((h₁.trans h₂).trans h₃) hget

/-! ### Attempts -/

theorem activate_started (hread : store.Reading request.executionId snapshot)
    (hidle : ∀ pointer, store.currentExecutions.get? snapshot.execution.ownerLookup =
      some pointer → pointer.executionId = none)
    (hnext : snapshot.execution.lifecycle.nextAttemptOrdinal = request.attemptOrdinal)
    (hok : request.activate clock snapshot store = .ok store') :
    Started witnessed request.executionId request.attemptOrdinal store store' := by
  simp only [AttemptStart.activate, bind_eq_ok] at hok
  obtain ⟨s₁, hattempt, s₂, hexecution, hpointer⟩ := hok
  have hinsert := attemptInserted_of_insertAttempt hattempt
  have h₁ : Evolves (some request.executionId) witnessed store s₁ :=
    insertAttempt_evolves hattempt rfl
  have h₂ : Evolves (some request.executionId) witnessed s₁ s₂ := updateExecution_evolves hexecution
  have hwithin := (h₁.trans h₂).pointer_within fun pointer hget => .inl (hidle pointer hget)
  have h₃ : Writes (some request.executionId) witnessed s₂ store' :=
    updateCurrentExecution_writes hpointer (.inr rfl) fun pointer hget _ => hwithin pointer hget
  have hget₁ : s₁.executions.get? request.executionId = some snapshot.execution := by
    rw [hinsert.others]
    exact hread.execution
  suffices hstarted : Started witnessed request.executionId request.attemptOrdinal store s₂ from
    hstarted.trans h₃
  simp only [updateExecution, do_eq_ok, accepted_eq_ok] at hexecution
  obtain ⟨-, -, table, hupdate, rfl⟩ := hexecution
  cases Table.updated_of_update? hupdate with
  | unmatched _ hnone => cases hnone _ hget₁
  | changed old _ _ _ _ hget =>
    have hothers : s₁.executions = store.executions := by rw [hinsert.others]
    refine ⟨h₁.trans h₂, ?_, fun hordinal => (hinsert.retry hordinal).1,
      hinsert.inserted.isSome_get?, ?_, ?_⟩
    · rw [currentOrdinal, hread.execution]
      exact hnext.symm
    · show (table.get? _).bind _ = _
      rw [hget, if_pos rfl]
      rfl
    · intro other hother
      show (table.get? _).bind _ = _
      rw [hget, if_neg hother, hothers]
      rfl

theorem resumeRetry_writes (hread : store.Reading executionId snapshot)
    (hconsistent : snapshot.Consistent) {middle : Store}
    (hok : AttemptStart.resumeRetry clock snapshot middle = .ok store') :
    Writes (some executionId) witnessed middle store' := by
  simp only [AttemptStart.resumeRetry, bind_eq_ok] at hok
  obtain ⟨s₁, hobligations, hok⟩ := hok
  have h₁ : Writes (some executionId) witnessed middle s₁ := .of_foldlM (fun _ _ _ _ hstep =>
    updateObligation_writes (hread.executionId_eq ▸ hstep)) hobligations
  split at hok
  · rw [← hread.executionId_eq] at h₁ ⊢
    exact h₁.trans (RecoverySnapshot.updateAssignments_writes hconsistent ⟨by simp, by simp⟩ hok)
  · cases hok
    exact h₁

theorem startNew_committed {result : Applied StartResult}
    (hget : store.get request.executionId = .ok snapshot)
    (hok : startNew clock request snapshot store = .ok (store', result)) :
    Committed witnessed store store' := by
  obtain ⟨hread, hconsistent⟩ := get_eq_ok.mp hget
  simp only [startNew, AttemptStart.validate, CurrentExecution.requireIdle, participant, do_eq_ok,
    exists_const] at hok
  obtain ⟨-, person, ⟨_, -, _, -, pointer, hpointer, rfl⟩, ⟨-, -, hidle, -, -, _, -, hnext, -, -⟩,
    s₁, hactivate, s₂, hresume, after, hafter, rfl, -⟩ := hok
  have hstarted : Started witnessed _ _ store s₁ := activate_started hread (fun pointer' hpointer' => by
    rw [hpointer, Option.some.injEq] at hpointer'
    exact hpointer' ▸ hidle) hnext hactivate
  exact .started (hstarted.trans (resumeRetry_writes hread hconsistent hresume))
    fun _ => ⟨after, hafter⟩

theorem start_committed {result : Applied StartResult}
    (hok : start clock request store = .ok (store', result))
    : Committed witnessed store store' := by
  obtain ⟨hok, -⟩ := writing_eq_ok.mp hok
  obtain ⟨snapshot, hget, hok⟩ := bind_eq_ok.mp hok
  split at hok
  · simp only [do_eq_ok] at hok
    obtain ⟨_, -, rfl, -⟩ := hok
    exact .refl _
  · exact startNew_committed hget hok

theorem requireFence_eq_ok (hok : store.requireFence fence = .ok (snapshot, attempt)) :
    store.get fence.executionId = .ok snapshot ∧ snapshot.isCurrent = true ∧
      snapshot.attempt = some attempt ∧ attempt.authority = fence.authority := by
  simp only [requireFence, RecoverySnapshot.requireCurrentAttempt, RecoverySnapshot.requireAttempt,
    do_eq_ok, exists_const] at hok
  obtain ⟨_, hget, _, ⟨hcurrent, hattempt⟩, _, -, ⟨hauthority, -⟩, -, rfl, rfl⟩ := hok
  exact ⟨hget, hcurrent, hattempt, hauthority⟩

theorem advanceAttempt_writes {phase : LivePhase} {backendDone processDead progress : Bool}
    (hok : advanceAttempt clock attempt phase backendDone processDead progress reasonCode store =
      .ok store') : Writes (some attempt.executionId) witnessed store store' := by
  simp only [advanceAttempt, bind_eq_ok] at hok
  obtain ⟨_, -, hupdate⟩ := hok
  exact updateAttempt_writes hupdate

theorem advance_committed {phase : AttemptKind} {backendDone processDead progress : Bool}
    {result : StartResult}
    (hok : advance clock fence phase expectedPointerRevision backendDone processDead progress
      reasonCode store = .ok (store', result)) : Committed witnessed store store' := by
  obtain ⟨hok, -⟩ := writing_eq_ok.mp hok
  split at hok
  · cases hok
  · simp only [do_eq_ok] at hok
    obtain ⟨⟨snapshot, attempt⟩, hfence, _, -, _, hadvance, after, hget, _, -, rfl, -⟩ := hok
    obtain ⟨-, -, -, hauthority⟩ := requireFence_eq_ok hfence
    rw [show fence.executionId = attempt.executionId from
      congrArg AttemptAuthority.executionId hauthority.symm] at hget
    exact .of_get (advanceAttempt_writes hadvance) hget

theorem finalizeUnknown_writes (hok : finalizeUnknown clock attempt store = .ok store') :
    Writes (some attempt.executionId) witnessed store store' := by
  unfold finalizeUnknown at hok
  split at hok
  · split at hok
    · cases hok
      exact Writes.refl store
    · exact advanceAttempt_writes hok
  · cases hok
    exact Writes.refl store

theorem failUnknown_committed (hok : failUnknown clock fence expectedPointerRevision release store =
      .ok (store', result)) : Committed witnessed store store' := by
  obtain ⟨hok, -⟩ := writing_eq_ok.mp hok
  simp only [do_eq_ok] at hok
  obtain ⟨⟨snapshot, attempt⟩, hfence, _, -, _, -, _, hfinal, final, hfinalGet, _, hsettle, after,
    hget, rfl, -⟩ := hok
  obtain ⟨-, -, -, hauthority⟩ := requireFence_eq_ok hfence
  rw [show fence.executionId = attempt.executionId from
    congrArg AttemptAuthority.executionId hauthority.symm] at hget hfinalGet
  exact .of_get ((finalizeUnknown_writes hfinal).trans
    (RecoverySnapshot.settle_writes hfinalGet hsettle)) hget

theorem preparedSettlement_writes {prepared : RecoverySnapshot}
    (hget : store.get fence.executionId = .ok snapshot)
    (hok : preparedSettlement fence failure snapshot store = .ok (store', prepared)) :
    Writes (some fence.executionId) witnessed store store' ∧
      store'.get fence.executionId = .ok prepared := by
  cases failure with
  | none =>
    cases hok
    exact ⟨Writes.refl store, hget⟩
  | some failure =>
    simp only [preparedSettlement, do_eq_ok] at hok
    obtain ⟨_, hprepare, ⟨_, _⟩, hfence, rfl, rfl⟩ := hok
    refine ⟨?_, (requireFence_eq_ok hfence).1⟩
    cases failure with
    | retryableProvider => exact (authorizeIfUnobserved_assessed hprepare).writes
    | other => exact (revoke_assessed hprepare).writes

theorem settleNonpublication_committed {outcome : Outcome}
    (hok : settleNonpublication clock fence expectedPointerRevision outcome reasonCode failure
      release store = .ok (store', result)) : Committed witnessed store store' := by
  obtain ⟨hok, -⟩ := writing_eq_ok.mp hok
  simp only [do_eq_ok] at hok
  obtain ⟨⟨snapshot, attempt⟩, hfence, _, -, ⟨_, prepared⟩, hprepared, _, hsettle, after, hget,
    rfl, -⟩ := hok
  obtain ⟨hwrites, hpreparedGet⟩ :
      Writes (some fence.executionId) witnessed store _ ∧ _ :=
    preparedSettlement_writes (requireFence_eq_ok hfence).1 hprepared
  exact .of_get (hwrites.trans (RecoverySnapshot.settle_writes hpreparedGet hsettle)) hget

/-! ### Recovery -/

theorem terminalizeDeadAttempt_committed
    {ordinal ownerGeneration attemptRevision executionRevision pointerRevision : Nat}
    {loss : Option AttemptAuthority} {result : Checked RecoverySnapshot}
    (hok : terminalizeDeadAttempt clock executionId ordinal ownerGeneration attemptRevision
      executionRevision pointerRevision evidence loss release store = .ok (store', result)) :
    Committed witnessed store store' := by
  obtain ⟨hok, -⟩ := writing_eq_ok.mp hok
  simp only [do_eq_ok, exists_const, PiStopReason.recordRecovery, Option.filter_eq_some_iff,
    Bool.and_eq_true, beq_iff_eq] at hok
  obtain ⟨-, -, snapshot, hget, attempt, ⟨hattempt, ⟨hcurrent, rfl⟩, -⟩, -, -, ⟨_, _⟩,
    ⟨s₁, hreplay, hrecovered⟩, s₂, hdeath, hok⟩ := hok
  obtain ⟨rfl, -⟩ := Prod.mk.inj hrecovered
  have hwrites : Writes (some executionId) witnessed store s₂ :=
    (accumulate_assessed hreplay).writes.trans (updateAttempt_writes hdeath)
  split at hok
  · simp only [do_eq_ok] at hok
    obtain ⟨⟨_, after⟩, hsettle, rfl, -⟩ := hok
    simp only [settleRecovered, do_eq_ok] at hsettle
    obtain ⟨before, hbefore, _, hsettle, _, -, _, haudit, _, hafter, rfl, rfl⟩ := hsettle
    exact .of_get (hwrites.trans ((RecoverySnapshot.settle_writes hbefore hsettle).trans
      (insertRecoveryAudit_writes haudit rfl))) hafter
  · -- Death alone commits: the attempt stays the live one of its active execution.
    obtain ⟨rfl, -⟩ := Prod.mk.inj (pure_eq_ok.mp hok)
    obtain ⟨hread, hconsistent⟩ := get_eq_ok.mp hget
    have hlive : attempt.lifecycle.isLive = true := by
      obtain ⟨-, -, -, hlive⟩ := hconsistent.current.mp hcurrent
      rwa [hattempt] at hlive
    have hcoherent := coherent_of_updateAttempt ((accumulate_assessed hreplay).reading hread)
      { hconsistent with
        replay := fun _ hrow =>
          (s₁.replayAssessments.keyed _ _ hrow).trans hread.executionId_eq.symm
        lifecycle := RecoverySnapshot.validateLifecycle_of_active
          (hconsistent.current.mp hcurrent).2.2.1 hcurrent } hcurrent hattempt hdeath (by
        cases hstate : attempt.lifecycle with
        | live => rfl
        | terminal =>
          rw [hstate] at hlive
          cases hlive)
    exact .wrote hwrites fun _ => hcoherent

/-! ### Responses -/

theorem requireFinalOwner_eq_ok
    (hok : store.requireFinalOwner fence boundary exactTarget = .ok snapshot) :
    store.get fence.executionId = .ok snapshot ∧ snapshot.isCurrent = true := by
  simp only [requireFinalOwner, do_eq_ok] at hok
  obtain ⟨⟨_, _⟩, hfence, _, -, _, -, rfl⟩ := hok
  obtain ⟨hget, hcurrent, -, -⟩ := requireFence_eq_ok hfence
  exact ⟨hget, hcurrent⟩

theorem prepareFencedResponse_committed {draft : ReplyDraft} {result : Applied PublicationIntent}
    (hok : prepareFencedResponse clock fence exactTarget draft boundary store =
      .ok (store', result)) : Committed witnessed store store' := by
  obtain ⟨hok, -⟩ := writing_eq_ok.mp hok
  obtain ⟨_, -, hok⟩ := bind_eq_ok.mp hok
  obtain ⟨_, -, hok⟩ := bind_eq_ok.mp hok
  obtain ⟨snapshot, howner, hok⟩ := bind_eq_ok.mp hok
  obtain ⟨obligation, hresponse, hok⟩ := bind_eq_ok.mp hok
  split at hok
  · simp only [do_eq_ok] at hok
    obtain ⟨_, -, rfl, -⟩ := hok
    exact .refl _
  · obtain ⟨hget, hcurrent⟩ := requireFinalOwner_eq_ok howner
    obtain ⟨hread, hconsistent⟩ := get_eq_ok.mp hget
    simp only [RecoverySnapshot.requireWireResponse, do_eq_ok, hread.obligationFor_eq] at hresponse
    have howed := hresponse.choose_spec.2
    have hcoherent := coherent_of_freezeReply hread hconsistent hcurrent howed hok
    simp only [freezeReply, do_eq_ok, hread.executionId_eq] at hok
    obtain ⟨_, -, _, hintent, _, hobligation, rfl, -⟩ := hok
    exact .wrote ((insertPublicationIntent_writes hintent rfl).trans
      (updateObligation_writes hobligation)) fun _ => hcoherent

/-- No snapshot reads the dispatch rows. -/
theorem coherent_of_insertAppendDispatch {row : PublicationAppendDispatch}
    (hok : store.insertAppendDispatch row = .ok store') (hcoherent : store.Coherent executionId) :
    store'.Coherent executionId := by
  simp only [insertAppendDispatch, do_eq_ok, accepted_eq_ok] at hok
  obtain ⟨-, -, table, -, rfl⟩ := hok
  intro hsome
  obtain ⟨snapshot, hget⟩ := hcoherent hsome
  obtain ⟨hread, hconsistent⟩ := get_eq_ok.mp hget
  exact ⟨snapshot, get_eq_ok.mpr ⟨{ hread with }, hconsistent⟩⟩

theorem dispatchOnce_committed {first : Bool}
    (hok : dispatchOnce clock fence exactTarget boundary snapshot store = .ok (store', first)) :
    Committed witnessed store store' := by
  unfold dispatchOnce at hok
  split at hok
  · simp only [do_eq_ok] at hok
    obtain ⟨_, hinsert, rfl, -⟩ := hok
    exact .wrote (insertAppendDispatch_writes hinsert rfl)
      (coherent_of_insertAppendDispatch hinsert)
  · simp only [do_eq_ok] at hok
    obtain ⟨_, -, rfl, -⟩ := hok
    exact .refl _

theorem dispatchFencedResponse_committed {result : Option Bool}
    (hok : dispatchFencedResponse clock fence exactTarget boundary store = .ok (store', result)) :
    Committed witnessed store store' := by
  obtain ⟨hok, -⟩ := writing_eq_ok.mp hok
  obtain ⟨_, -, hok⟩ := bind_eq_ok.mp hok
  obtain ⟨replay, -, hok⟩ := bind_eq_ok.mp hok
  cases replay with
  | some =>
    cases hok
    exact .refl _
  | none =>
    simp only [do_eq_ok] at hok
    obtain ⟨_, -, _, -, ⟨_, _⟩, hdispatch, rfl, -⟩ := hok
    exact dispatchOnce_committed hdispatch

/-- The receipt is for the route and names the message the bus answered for its intent,
or the one this call appended when the bus had none. -/
def Acknowledged (store : Store) (route : ExecutionId × String) (boundary : ResponseBoundary)
    (appended : Option Message) (receipt : PublicationEvidence) : Prop :=
  Record.key receipt = route ∧ ∃ intent matched,
    store.publicationIntents.get? route = some intent ∧
    (boundary.published intent = .ok (some matched) ∨
      boundary.published intent = .ok none ∧ appended = some matched) ∧
    matched.seq = receipt.seq ∧ matched.messageId = receipt.messageId

theorem complete_committed {dispatch : PublicationAppendDispatch} {matched : Message}
    {after : RecoverySnapshot}
    (hok : complete clock dispatch boundary snapshot intent obligation matched store =
      .ok (store', after))
    (hwitnessed : ∀ receivedAt, witnessed ⟨intent.executionId, intent.exactTarget, matched.seq,
      matched.messageId, receivedAt⟩) : Committed witnessed store store' := by
  simp only [complete, do_eq_ok] at hok
  obtain ⟨_, -, _, -, _, hreceipt, _, hobligation, current, hcurrent, _, hfinish, _, hafter, rfl,
    rfl⟩ := hok
  refine .of_get (((insertPublicationReceipt_writes hreceipt rfl (hwitnessed _)).trans
    (updateObligation_writes hobligation)).trans ?_) hafter
  simp only [RecoverySnapshot.finishPublications, bind_eq_ok] at hfinish
  obtain ⟨owed, -, hfinish⟩ := hfinish
  split at hfinish
  · exact RecoverySnapshot.completeAttempt_writes hcurrent hfinish
  · cases hfinish
    exact Writes.refl _

theorem requirePublishingIntent_eq_ok (hget : store.get executionId = .ok snapshot)
    (hok : snapshot.requirePublishingIntent exactTarget boundary = .ok (intent, obligation)) :
    store.publicationIntents.get? (executionId, exactTarget) = some intent := by
  obtain ⟨hread, -⟩ := get_eq_ok.mp hget
  simp only [RecoverySnapshot.requirePublishingIntent, do_eq_ok, exists_const,
    Option.filter_eq_some_iff] at hok
  obtain ⟨_, -, -, _, -, -, _, ⟨hintent, -⟩, rfl, -⟩ := hok
  rw [← hread.intentFor_eq, hintent]

theorem settlementBasis_eq_ok {basis : SettlementBasis}
    (hok : store.settlementBasis fence exactTarget boundary = .ok (some basis)) :
    store.publicationIntents.get? (fence.executionId, exactTarget) = some basis.intent ∧
      boundary.published basis.intent = .ok basis.matched ∧
      (store.appendDispatches.get? (fence.executionId, exactTarget)).isSome = true := by
  obtain ⟨_, -, hok⟩ := bind_eq_ok.mp hok
  obtain ⟨replay, -, hok⟩ := bind_eq_ok.mp hok
  cases replay with
  | some => cases hok
  | none =>
    simp only [do_eq_ok, Option.filter_eq_some_iff, Option.some.injEq] at hok
    obtain ⟨snapshot, howner, ⟨intent, obligation⟩, hintent, dispatch, ⟨hdispatch, -⟩, _,
      hmatched, rfl⟩ := hok
    refine ⟨requirePublishingIntent_eq_ok (requireFinalOwner_eq_ok howner).1 hintent, hmatched, ?_⟩
    rw [hdispatch]
    rfl

theorem settleFencedResponse_committed {appended : Option Message}
    {result : Option RecoverySnapshot}
    (hok : settleFencedResponse clock fence exactTarget boundary appended store =
      .ok (store', result)) :
    Committed (Acknowledged store (fence.executionId, exactTarget) boundary appended)
      store store' := by
  obtain ⟨hok, -⟩ := writing_eq_ok.mp hok
  obtain ⟨basis, hbasis, hok⟩ := bind_eq_ok.mp hok
  cases basis with
  | none =>
    cases hok
    exact .refl _
  | some basis =>
    simp only [do_eq_ok] at hok
    obtain ⟨matched, hmatched, ⟨_, _⟩, hcomplete, rfl, -⟩ := hok
    obtain ⟨hintent, hpublished, -⟩ := settlementBasis_eq_ok hbasis
    refine complete_committed hcomplete fun _ =>
      ⟨store.publicationIntents.keyed _ _ hintent, basis.intent, matched, hintent, ?_, rfl, rfl⟩
    cases hfound : basis.matched with
    | some =>
      rw [hfound, Option.some_or, Option.some.injEq] at hmatched
      exact .inl (hmatched ▸ hfound ▸ hpublished)
    | none =>
      rw [hfound, Option.none_or] at hmatched
      exact .inr ⟨hfound ▸ hpublished, hmatched⟩

theorem resolveRetained_committed
    (hok : resolveRetained clock executionId exactTarget boundary store =
      .ok (store', result)) :
    Committed (Acknowledged store (executionId, exactTarget) boundary none) store store' := by
  obtain ⟨hok, -⟩ := writing_eq_ok.mp hok
  simp only [do_eq_ok] at hok
  obtain ⟨_, -, snapshot, hget, _, -, ⟨intent, obligation⟩, hintent, _, -, _, -, _, hpublished,
    matched, rfl, hcomplete⟩ := hok
  have hstored := requirePublishingIntent_eq_ok hget hintent
  exact complete_committed hcomplete fun _ => ⟨store.publicationIntents.keyed _ _ hstored,
    intent, matched, hstored, .inl hpublished, rfl, rfl⟩

/-! ### Replay evidence -/

theorem recordReplay_committed {change : Store → Checked Store} {result : Unit}
    (hok : recordReplay change store = .ok (store', result))
    (hassessed : ∀ {after}, change store = .ok after → AssessedOwn executionId store after) :
    Committed witnessed store store' := by
  obtain ⟨hok, hkeys⟩ := writing_eq_ok.mp hok
  simp only [do_eq_ok] at hok
  obtain ⟨_, hchange, rfl, -⟩ := hok
  exact .wrote (hassessed hchange).writes ((hassessed hchange).coherent hkeys)

end Store

end AgentComms.Coordination
