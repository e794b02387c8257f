import AgentComms.Coordination.Evolution

/-!
# Coherent executions

`RecoverySnapshot.Consistent` is what the snapshot validator checks, fact by fact,
and `Reading` is what the reader collects. An execution is coherent when its
snapshot can be read; statements that write for another execution keep it so.
-/

namespace AgentComms.Coordination

open Library Relation

/-! ### What the validator checks -/

/-- The facts `RecoverySnapshot.__post_init__` checks. -/
structure RecoverySnapshot.Consistent (snapshot : RecoverySnapshot) : Prop where
  replay : ∀ row ∈ snapshot.replay, row.executionId = snapshot.execution.executionId
  obligations : ∀ row ∈ snapshot.obligations, row.executionId = snapshot.execution.executionId
  intents : ∀ row ∈ snapshot.publicationIntents,
    row.executionId = snapshot.execution.executionId
  evidence : ∀ row ∈ snapshot.publicationEvidence,
    row.executionId = snapshot.execution.executionId
  audit : ∀ row ∈ snapshot.lastRecovery, row.executionId = snapshot.execution.executionId
  bound : ∀ row ∈ snapshot.assignments,
    row.lifecycle.executionId = some snapshot.execution.executionId
  linked : snapshot.links.map ExecutionAssignmentLink.assignmentId =
    snapshot.assignments.map WakeAssignment.assignmentId
  ordered : snapshot.links.map ExecutionAssignmentLink.ordinal =
    List.range snapshot.assignments.length
  links : ∀ link ∈ snapshot.links, link.executionId = snapshot.execution.executionId
  distinct : (snapshot.assignments.map WakeAssignment.assignmentId).Nodup
  owner : ∀ row ∈ snapshot.assignments, row.recipientLookup = snapshot.execution.ownerLookup
  kinds : ∀ row ∈ snapshot.assignments,
    row.lifecycle.kind = snapshot.execution.lifecycle.kind.assignmentState
  attemptExists : snapshot.execution.lifecycle.currentAttemptOrdinal.isNone =
    snapshot.attempt.isNone
  attemptIdentity : ∀ attempt ∈ snapshot.attempt,
    attempt.executionId = snapshot.execution.executionId ∧
    some attempt.attemptOrdinal = snapshot.execution.lifecycle.currentAttemptOrdinal ∧
    attempt.ownerLookup = snapshot.execution.ownerLookup
  attemptAccepted : ∀ attempt ∈ snapshot.attempt,
    snapshot.execution.lifecycle.acceptsAttempt attempt.lifecycle = true
  pointerComplete : snapshot.currentExecutionId.isSome = snapshot.currentAttemptOrdinal.isSome
  current : snapshot.isCurrent = true ↔
    snapshot.currentExecutionId = some snapshot.execution.executionId ∧
    snapshot.currentAttemptOrdinal = snapshot.execution.lifecycle.currentAttemptOrdinal ∧
    snapshot.execution.lifecycle.kind = .active ∧
    snapshot.attempt.any (·.lifecycle.isLive) = true
  routes : snapshot.validateRoutes = .ok ()
  targets : (snapshot.obligations.map ResponseObligation.exactTarget).Nodup
  targetsRouted : ∀ target ∈ snapshot.obligations.map ResponseObligation.exactTarget,
    some target ∈ snapshot.routes
  routesOwed : ∀ route ∈ snapshot.routes,
    ∃ target ∈ snapshot.obligations.map ResponseObligation.exactTarget, route = some target
  intentTargets : (snapshot.publicationIntents.map PublicationIntent.exactTarget).Nodup
  intentsRouted : ∀ row ∈ snapshot.publicationIntents, some row.exactTarget ∈ snapshot.routes
  evidenceTargets : (snapshot.publicationEvidence.map PublicationEvidence.exactTarget).Nodup
  evidenceRouted : ∀ row ∈ snapshot.publicationEvidence, some row.exactTarget ∈ snapshot.routes
  publications : ∀ row ∈ snapshot.obligations,
    row.lifecycle.validatePublication (snapshot.intentFor row.exactTarget)
      (snapshot.evidenceFor row.exactTarget) = .ok ()
  lifecycle : snapshot.validateLifecycle = .ok ()

theorem RecoverySnapshot.validate_eq_ok {snapshot : RecoverySnapshot} :
    snapshot.validate = .ok () ↔ snapshot.Consistent := by
  simp only [validate, validateMembership, validateAttemptIdentity, validateCurrentPointer,
    validateResponseRoute, validatePublicationReceipt, do_eq_ok, forM_eq_ok, exists_const]
  constructor
  · rintro ⟨⟨⟨_, _, _, _, _, _⟩, ⟨_, _, _⟩, ⟨_, _⟩, _⟩, ⟨_, _, _⟩, ⟨_, _⟩,
      ⟨_, _, ⟨_, _, _⟩, ⟨_, _⟩, _, _⟩, _, _⟩
    constructor <;> assumption
  · intro h
    exact ⟨⟨⟨h.replay, h.obligations, h.intents, h.evidence, h.audit, h.bound⟩,
      ⟨h.linked, h.ordered, h.links⟩, ⟨h.distinct, h.owner⟩, h.kinds⟩,
      ⟨h.attemptExists, h.attemptIdentity, h.attemptAccepted⟩, ⟨h.pointerComplete, h.current⟩,
      ⟨(), h.routes, ⟨h.targets, h.targetsRouted, h.routesOwed⟩, ⟨h.intentTargets, h.intentsRouted⟩,
        h.evidenceTargets, h.evidenceRouted⟩, h.publications, h.lifecycle⟩

/-! ### What the reader collects -/

/-- The snapshot holds the records the store has for the execution. -/
structure Store.Reading (store : Store) (executionId : ExecutionId)
    (snapshot : RecoverySnapshot) : Prop where
  execution : store.executions.get? executionId = some snapshot.execution
  attempt : snapshot.attempt = snapshot.execution.lifecycle.currentAttemptOrdinal.bind
    fun ordinal => store.attempts.get? (executionId, ordinal)
  assignments : List.Forall₂ (fun (link : ExecutionAssignmentLink) row =>
    store.wakeClaims.get? link.assignmentId = some row) (store.linksOf executionId)
    snapshot.assignments
  links : snapshot.links = store.linksOf executionId
  replay : snapshot.replay = store.replayAssessments.get? executionId
  obligations : snapshot.obligations = store.obligationsOf executionId
  intents : snapshot.publicationIntents = store.intentsOf executionId
  evidence : snapshot.publicationEvidence = store.evidenceOf executionId
  lastRecovery : snapshot.lastRecovery = (store.auditsOf executionId).getLast?
  committed : ∃ person, store.participants.get? snapshot.execution.ownerLookup = some person
  generation : ∃ row, store.ownerGenerations.get? snapshot.execution.ownerLookup = some row
  pointer : ∃ pointer, store.currentExecutions.get? snapshot.execution.ownerLookup =
      some pointer ∧ snapshot.currentExecutionId = pointer.executionId ∧
      snapshot.currentAttemptOrdinal = pointer.attemptOrdinal ∧
      snapshot.pointerRevision = pointer.pointerRevision
  isCurrent : snapshot.isCurrent = (snapshot.currentExecutionId == some executionId)

namespace Store

variable {own : Option ExecutionId} {store store' : Store} {executionId : ExecutionId}
  {snapshot : RecoverySnapshot}

theorem read_eq_ok : store.read executionId = .ok snapshot ↔
    Reading store executionId snapshot := by
  simp only [read, participant, assignment, do_eq_ok, mapM_eq_ok]
  constructor
  · rintro ⟨execution, hexecution, assignments, hassignments, owner, ⟨person, hperson, generation,
      hgeneration, pointer, hpointer, rfl⟩, rfl⟩
    exact ⟨hexecution, rfl, hassignments, rfl, rfl, rfl, rfl, rfl, rfl, ⟨_, hperson⟩,
      ⟨_, hgeneration⟩, ⟨_, hpointer, rfl, rfl, rfl⟩, rfl⟩
  · intro h
    obtain ⟨person, hperson⟩ := h.committed
    obtain ⟨generation, hgeneration⟩ := h.generation
    obtain ⟨pointer, hpointer, hid, hordinal, hrevision⟩ := h.pointer
    refine ⟨_, h.execution, _, h.assignments, _, ⟨_, hperson, _, hgeneration, _, hpointer, rfl⟩, ?_⟩
    exact RecoverySnapshot.ext rfl h.attempt.symm rfl h.links.symm h.replay.symm
      h.obligations.symm h.intents.symm h.evidence.symm h.lastRecovery.symm hid.symm
      hordinal.symm hrevision.symm (by rw [h.isCurrent, hid])

theorem get_eq_ok : store.get executionId = .ok snapshot ↔
    Reading store executionId snapshot ∧ snapshot.Consistent := by
  simp only [get, do_eq_ok, read_eq_ok]
  constructor
  · rintro ⟨read, hread, _, hvalid, rfl⟩
    exact ⟨hread, RecoverySnapshot.validate_eq_ok.mp hvalid⟩
  · rintro ⟨hread, hconsistent⟩
    exact ⟨snapshot, hread, (), RecoverySnapshot.validate_eq_ok.mpr hconsistent, rfl⟩

namespace Reading

variable (hread : Reading store executionId snapshot)

include hread

theorem executionId_eq : snapshot.execution.executionId = executionId :=
  store.executions.keyed _ _ hread.execution

theorem intentFor_eq (exactTarget : String) :
    snapshot.intentFor exactTarget = store.publicationIntents.get? (executionId, exactTarget) := by
  rw [RecoverySnapshot.intentFor, hread.intents]
  refine Table.find?_selectBy fun row => ?_
  rw [beq_iff_eq, beq_iff_eq]
  exact Prod.ext_iff

theorem evidenceFor_eq (exactTarget : String) : snapshot.evidenceFor exactTarget =
    store.publicationReceipts.get? (executionId, exactTarget) := by
  rw [RecoverySnapshot.evidenceFor, hread.evidence]
  refine Table.find?_selectBy fun row => ?_
  rw [beq_iff_eq, beq_iff_eq]
  exact Prod.ext_iff

theorem obligationFor_eq (exactTarget : String) : snapshot.obligationFor exactTarget =
    store.obligations.get? (executionId, exactTarget) := by
  rw [RecoverySnapshot.obligationFor, hread.obligations]
  refine Table.find?_selectBy fun row => ?_
  rw [beq_iff_eq, beq_iff_eq]
  exact Prod.ext_iff

/-- The snapshot and the view of the triggers agree on who may retry. -/
theorem retryAuthorized_eq : snapshot.retryAuthorized = store.retryBasis executionId := by
  have hperm : (snapshot.obligations).Perm (store.owed executionId) := by
    rw [hread.obligations]
    exact List.perm_insertionSort _ _
  have hempty : snapshot.obligations.isEmpty = (store.owed executionId).isEmpty := by
    rw [Bool.eq_iff_iff, List.isEmpty_iff, List.isEmpty_iff]
    exact ⟨fun h => (h ▸ hperm).nil_eq.symm, fun h => (h ▸ hperm).eq_nil⟩
  have hall : (snapshot.obligations.all fun row => row.lifecycle.kind.retryable) =
      (store.owed executionId).all fun row => row.lifecycle.kind.retryable := hperm.all_eq
  rw [retryBasis, hread.execution, Option.any_some, routesRetryable, hread.executionId_eq,
    ← hread.replay, ← hempty, ← hall]
  rfl

end Reading

/-- The routes an execution owes are the keys of its obligations. -/
theorem mem_obligationTargets {exactTarget : String} :
    exactTarget ∈ (store.obligationsOf executionId).map ResponseObligation.exactTarget ↔
      (store.obligations.get? (executionId, exactTarget)).isSome := by
  rw [List.mem_map, Option.isSome_iff_exists]
  constructor
  · rintro ⟨row, hrow, rfl⟩
    obtain ⟨hget, hid⟩ := Table.mem_selectBy.mp hrow
    exact ⟨row, beq_iff_eq.mp hid ▸ hget⟩
  · rintro ⟨row, hget⟩
    have hkey := store.obligations.keyed _ _ hget
    exact ⟨row, Table.mem_selectBy.mpr ⟨hkey ▸ hget, beq_iff_eq.mpr (congrArg Prod.fst hkey)⟩,
      congrArg Prod.snd hkey⟩

end Store

/-! ### Statements for another execution -/

/-- A stored execution can be read. -/
def Store.Coherent (store : Store) (executionId : ExecutionId) : Prop :=
  (store.executions.get? executionId).isSome → ∃ snapshot, store.get executionId = .ok snapshot

variable {own : Option ExecutionId} {witnessed : PublicationEvidence → Prop}
  {store store' : Store} {executionId : ExecutionId} {snapshot : RecoverySnapshot}

/-- Statements for another execution leave every record a snapshot reads, except that
an owner who works on something else may move on. -/
theorem Evolves.reading (hevolves : Evolves own witnessed store store')
    (hother : own ≠ some executionId)
    (hread : store.Reading executionId snapshot) (hconsistent : snapshot.Consistent)
    {pointer' : CurrentExecution}
    (hpointer' : store'.currentExecutions.get? snapshot.execution.ownerLookup = some pointer') :
    store'.Reading executionId { snapshot with
      currentExecutionId := pointer'.executionId
      currentAttemptOrdinal := pointer'.attemptOrdinal
      pointerRevision := pointer'.pointerRevision
      isCurrent := pointer'.executionId == some executionId } := by
  have hout : ∀ {id : ExecutionId}, id = executionId → ¬ own = some id ∧ ¬ own = some id := by
    rintro _ rfl
    exact ⟨hother, hother⟩
  have hlinks : store'.linksOf executionId = store.linksOf executionId :=
    hevolves.executionClaims.selectBy_eq (fun row hrow => hout (beq_iff_eq.mp hrow))
      fun row row' hrow hrow' hordinal =>
        Prod.ext ((beq_iff_eq.mp hrow).trans (beq_iff_eq.mp hrow').symm) hordinal
  obtain ⟨person, hperson⟩ := hread.committed
  obtain ⟨generation, hgeneration⟩ := hread.generation
  obtain ⟨person', hperson', -⟩ := hevolves.participants.kept hperson
  obtain ⟨generation', hgeneration', -⟩ := hevolves.ownerGenerations.kept hgeneration
  exact
    { execution := (hevolves.executions.get?_eq fun row hrow => hout hrow).trans hread.execution
      attempt := by
        rw [hread.attempt]
        refine Option.bind_congr fun ordinal _ => ?_
        exact (hevolves.attempts.get?_eq fun row hrow => hout (congrArg Prod.fst hrow)).symm
      assignments := by
        -- The claims of a coherent execution are bound to it, so nobody else writes them.
        rw [hlinks]
        obtain ⟨hlength, hzip⟩ := List.forall₂_iff_zip.mp hread.assignments
        refine List.forall₂_iff_zip.mpr ⟨hlength, fun {link row} hmem => ?_⟩
        have hrow := (List.of_mem_zip hmem).2
        refine hevolves.wakeClaims.framed (hzip hmem) ?_
        rintro (hnone | hown)
        · rw [hconsistent.bound row hrow] at hnone
          cases hnone
        · rw [hconsistent.bound row hrow, hread.executionId_eq] at hown
          exact hother hown.symm
      links := hread.links.trans hlinks.symm
      replay := hread.replay.trans
        (hevolves.replayAssessments.get?_eq fun row hrow => hout hrow).symm
      obligations := hread.obligations.trans (hevolves.obligations.selectBy_eq
        (fun row hrow => hout (beq_iff_eq.mp hrow)) fun row row' hrow hrow' htarget =>
          Prod.ext ((beq_iff_eq.mp hrow).trans (beq_iff_eq.mp hrow').symm) htarget).symm
      intents := hread.intents.trans (hevolves.publicationIntents.selectBy_eq
        (fun row hrow => hout (beq_iff_eq.mp hrow)) fun row row' hrow hrow' htarget =>
          Prod.ext ((beq_iff_eq.mp hrow).trans (beq_iff_eq.mp hrow').symm) htarget).symm
      evidence := hread.evidence.trans (hevolves.publicationReceipts.selectBy_eq
        (fun row hrow => (hout (beq_iff_eq.mp hrow)).imp_right fun hother hown => hother hown.1)
        fun row row' hrow hrow' htarget =>
          Prod.ext ((beq_iff_eq.mp hrow).trans (beq_iff_eq.mp hrow').symm) htarget).symm
      lastRecovery := hread.lastRecovery.trans (congrArg List.getLast?
        (hevolves.recoveryAudits.selectBy_eq (fun row hrow => hout (beq_iff_eq.mp hrow))
          fun row row' _ _ haudit => haudit).symm)
      committed := ⟨_, hperson'⟩
      generation := ⟨_, hgeneration'⟩
      pointer := ⟨_, hpointer', rfl, rfl, rfl⟩
      isCurrent := rfl }

theorem Evolves.coherent (hevolves : Evolves own witnessed store store')
    (hother : own ≠ some executionId)
    (hcoherent : store.Coherent executionId) : store'.Coherent executionId := by
  intro hsome
  have hexecution : store'.executions.get? executionId = store.executions.get? executionId :=
    hevolves.executions.get?_eq fun row hrow =>
      ⟨fun hown => hother (hown.trans (congrArg some hrow)),
        fun hown => hother (hown.trans (congrArg some hrow))⟩
  obtain ⟨snapshot, hget⟩ := hcoherent (hexecution ▸ hsome)
  obtain ⟨hread, hconsistent⟩ := Store.get_eq_ok.mp hget
  obtain ⟨pointer, hpointer, hid, hordinal, hrevision⟩ := hread.pointer
  obtain ⟨pointer', hpointer', -⟩ := hevolves.currentExecutions.kept hpointer
  refine ⟨_, Store.get_eq_ok.mpr ⟨hevolves.reading hother hread hconsistent hpointer', ?_⟩⟩
  by_cases hcurrent : pointer.executionId = some executionId
  · -- The owner works on this execution: the pointer stayed.
    have hframed := hevolves.currentExecutions.framed hpointer (by
      rintro (hnone | hown)
      · rw [hcurrent] at hnone
        cases hnone
      · exact hother (hown.symm.trans hcurrent))
    rw [hpointer', Option.some.injEq] at hframed
    rw [hframed, ← hid, ← hordinal, ← hrevision, ← hread.isCurrent]
    exact hconsistent
  · have hidle : snapshot.isCurrent = false := by
      rw [hread.isCurrent, hid]
      exact beq_eq_false_iff_ne.mpr hcurrent
    have hpointed : pointer'.executionId ≠ some executionId := by
      rcases hevolves.currentExecutions.reached hpointer' with hsame | hnone | hown
      · rw [hpointer, Option.some.injEq] at hsame
        exact hsame ▸ hcurrent
      · rw [hnone]
        exact (Option.some_ne_none _).symm
      · exact fun hsame => hother (hown.symm.trans hsame)
    rw [beq_eq_false_iff_ne.mpr hpointed, ← hidle]
    exact { hconsistent with
      pointerComplete := (store'.currentExecutions.valid _ _ hpointer').1
      current := iff_of_false (hidle ▸ Bool.false_ne_true)
        fun hsame => hpointed (hread.executionId_eq ▸ hsame.1) }

/-! ### Replay evidence of the execution itself -/

/-- Only replay evidence was written, and what was written passed its trigger. -/
structure Assessed (executionId : ExecutionId) (before after : Store) : Prop where
  others : after = { before with replayAssessments := after.replayAssessments }
  partitioned : after.replayAssessments = before.replayAssessments ∨
    after.retryPartitioned executionId = true

structure AssessedOwn (executionId : ExecutionId) (before after : Store) : Prop extends
    Assessed executionId before after where
  writes : ∀ {witnessed}, Writes (some executionId) witnessed before after

theorem AssessedOwn.refl (executionId : ExecutionId) (store : Store) :
    AssessedOwn executionId store store := ⟨⟨rfl, .inl rfl⟩, .refl store⟩

namespace Store

theorem insertReplayAssessment_assessed {row : ReplayAssessment}
    (hok : store.insertReplayAssessment row = .ok store') :
    AssessedOwn row.executionId store store' := by
  refine ⟨?_, insertReplayAssessment_writes hok rfl⟩
  simp only [insertReplayAssessment, bind_eq_ok, accepted_eq_ok, afterWrite_eq_ok] at hok
  obtain ⟨-, -, table, -, hpartitioned, rfl⟩ := hok
  exact ⟨rfl, .inr (hpartitioned.resolve_left Bool.false_ne_true.symm)⟩

theorem updateReplayAssessment_assessed {edit : ReplayAssessment → ReplayAssessment}
    (hok : store.updateReplayAssessment executionId edit = .ok store')
    (hsome : (store.replayAssessments.get? executionId).isSome) :
    AssessedOwn executionId store store' := by
  refine ⟨?_, updateReplayAssessment_writes hok⟩
  simp only [updateReplayAssessment, bind_eq_ok, accepted_eq_ok, afterWrite_eq_ok] at hok
  obtain ⟨table, -, hpartitioned, rfl⟩ := hok
  refine ⟨rfl, .inr (hpartitioned.resolve_left ?_)⟩
  simp [hsome]

theorem accumulate_assessed {observed : ReplayFacts}
    (hok : store.accumulate executionId observed = .ok store') :
    AssessedOwn executionId store store' := by
  unfold accumulate at hok
  split at hok
  · split at hok
    · cases hok
      exact .refl _ _
    · exact insertReplayAssessment_assessed hok
  next row hrow =>
    split at hok
    · cases hok
      exact .refl _ _
    · exact updateReplayAssessment_assessed hok (by rw [hrow]; rfl)

theorem authorizeIfUnobserved_assessed
    (hok : store.authorizeIfUnobserved executionId = .ok store') :
    AssessedOwn executionId store store' := by
  unfold authorizeIfUnobserved at hok
  split at hok
  · exact insertReplayAssessment_assessed hok
  · cases hok
    exact .refl _ _

theorem revoke_assessed (hok : store.revoke executionId = .ok store') :
    AssessedOwn executionId store store' := by
  unfold revoke at hok
  split at hok
  next row hrow =>
    split at hok
    · exact updateReplayAssessment_assessed hok (by rw [hrow]; rfl)
    · cases hok
      exact .refl _ _
  · cases hok
    exact .refl _ _

end Store

/-- The records of the execution after its replay evidence changed. -/
theorem Assessed.reading (hassessed : Assessed executionId store store')
    (hread : store.Reading executionId snapshot) :
    store'.Reading executionId
      { snapshot with replay := store'.replayAssessments.get? executionId } := by
  rw [hassessed.others]
  exact { hread with replay := rfl }

/-- New replay evidence keeps an execution coherent: a deferral that waits for its
retry refers to it when the transaction commits, and a failure is checked by the
trigger on the evidence itself. -/
theorem Assessed.coherent (hassessed : Assessed executionId store store')
    (hkeys : store'.ForeignKeys) (hcoherent : store.Coherent executionId) :
    store'.Coherent executionId := by
  intro hsome
  have hexecutions : store'.executions = store.executions := by rw [hassessed.others]
  obtain ⟨snapshot, hget⟩ := hcoherent (hexecutions ▸ hsome)
  obtain ⟨hread, hconsistent⟩ := Store.get_eq_ok.mp hget
  have hread' := hassessed.reading hread
  refine ⟨_, Store.get_eq_ok.mpr ⟨hread', { hconsistent with replay := ?_, lifecycle := ?_ }⟩⟩
  · intro row hrow
    exact (store'.replayAssessments.keyed _ _ hrow).trans hread.executionId_eq.symm
  · have hlifecycle := hconsistent.lifecycle
    have hexists := hconsistent.attemptExists
    unfold RecoverySnapshot.validateLifecycle at hlifecycle ⊢
    cases hstate : snapshot.execution.lifecycle with
    | queued | pending | active _ | completed _ =>
      simp only [hstate] at hlifecycle ⊢
      exact hlifecycle
    | deferred ordinal =>
      simp only [hstate, require_eq_ok] at hlifecycle hexists ⊢
      refine hlifecycle.imp_right fun hauthorized => ?_
      rcases ordinal with - | ordinal
      · simp [RecoverySnapshot.retryAuthorized, hstate, ExecutionState.hasRetryBudget,
          ExecutionState.currentAttemptOrdinal] at hauthorized
      · have hreferences := hkeys.2.1 _ (Table.mem_values_of_get? hread'.execution)
        simp only [Store.executionReferences, hstate, Bool.and_eq_true,
          hread.executionId_eq] at hreferences
        simp only [RecoverySnapshot.retryAuthorized, Bool.and_eq_true] at hauthorized ⊢
        exact ⟨⟨hauthorized.1.1, hreferences.1⟩, hauthorized.2⟩
    | failed ordinal =>
      simp only [hstate, do_eq_ok, exists_const] at hlifecycle hexists ⊢
      refine ⟨hlifecycle.1, hlifecycle.2.imp_right fun hdenied => ?_⟩
      rcases hassessed.partitioned with hsame | hpartitioned
      · rw [hsame, ← hread.replay]
        exact hdenied
      · rcases ordinal with - | ordinal
        · simp [RecoverySnapshot.retryAuthorized, hstate, ExecutionState.hasRetryBudget,
            ExecutionState.currentAttemptOrdinal]
        · rw [hread'.retryAuthorized_eq]
          simpa [Store.retryPartitioned, hread'.execution, hstate, ExecutionState.kind,
            ExecutionState.currentAttemptOrdinal] using hpartitioned

/-! ### The current attempt of the execution itself -/

/-- An active execution only asks for its owner's pointer. -/
theorem RecoverySnapshot.validateLifecycle_of_active
    (hactive : snapshot.execution.lifecycle.kind = .active) (hcurrent : snapshot.isCurrent = true) :
    snapshot.validateLifecycle = .ok () := by
  cases hstate : snapshot.execution.lifecycle <;>
    simp_all [validateLifecycle, ExecutionState.kind]

/-- The attempt of an active execution may change as long as it stays live. -/
theorem Store.coherent_of_updateAttempt (hread : store.Reading executionId snapshot)
    (hconsistent : snapshot.Consistent) (hcurrent : snapshot.isCurrent = true)
    {attempt : AttemptRecord} (hattempt : snapshot.attempt = some attempt)
    {edit : AttemptRecord → AttemptRecord}
    (hok : store.updateAttempt executionId attempt.attemptOrdinal (fun _ => true) edit = .ok store')
    (hlive : (edit attempt).lifecycle.isLive = true) : store'.Coherent executionId := by
  intro _
  obtain ⟨hid, hordinal, howner⟩ := hconsistent.attemptIdentity attempt hattempt
  have hget := hattempt
  rw [hread.attempt, ← hordinal, Option.bind_some] at hget
  obtain ⟨hpointed, hpointedOrdinal, hactive, -⟩ := hconsistent.current.mp hcurrent
  simp only [updateAttempt, do_eq_ok, accepted_eq_ok] at hok
  obtain ⟨table, hupdate, rfl⟩ := hok
  cases Table.updated_of_update? hupdate with
  | unmatched _ hnone => cases hnone _ hget
  | changed old hold _ hadmits _ hget' =>
    rw [hget, Option.some.injEq] at hold
    subst hold
    have hauthority : (edit attempt).authority = attempt.authority := hadmits.1
    refine ⟨{ snapshot with attempt := some (edit attempt) }, Store.get_eq_ok.mpr ⟨?_, ?_⟩⟩
    · refine { hread with attempt := ?_ }
      show some (edit attempt) = _
      rw [← hordinal]
      exact ((hget' _).trans (if_pos rfl)).symm
    · refine { hconsistent with
        attemptExists := by rw [← hordinal]; rfl
        attemptIdentity := ?_
        attemptAccepted := ?_
        current := ?_
        lifecycle := RecoverySnapshot.validateLifecycle_of_active hactive hcurrent }
      · rintro _ ⟨⟩
        exact ⟨(congrArg AttemptAuthority.executionId hauthority).trans hid,
          (congrArg (some ∘ AttemptAuthority.ordinal) hauthority).trans hordinal,
          (congrArg AttemptAuthority.ownerLookup hauthority).trans howner⟩
      · rintro _ ⟨⟩
        cases hstate : snapshot.execution.lifecycle <;>
          simp_all [ExecutionState.kind, ExecutionState.acceptsAttempt]
      · exact ⟨fun _ => ⟨hpointed, hpointedOrdinal, hactive, hlive⟩, fun _ => hcurrent⟩

/-! ### A frozen reply of the execution itself -/

theorem Store.obligation_mem {row : ResponseObligation}
    (hrow : row ∈ store.obligationsOf executionId) :
    store.obligations.get? (executionId, row.exactTarget) = some row ∧
      row.executionId = executionId := by
  obtain ⟨hget, hid⟩ := Table.mem_selectBy.mp hrow
  exact ⟨beq_iff_eq.mp hid ▸ hget, beq_iff_eq.mp hid⟩

/-- The publications of an execution after one route froze its first reply. -/
theorem Store.publications_of_freeze {intents : Table PublicationIntent}
    {obligations : Table ResponseObligation} {intent : PublicationIntent} {exactTarget : String}
    {obligation : ResponseObligation} {selects : ResponseObligation → Bool}
    {edit : ResponseObligation → ResponseObligation}
    (hread : store.Reading executionId snapshot) (hconsistent : snapshot.Consistent)
    (howed : store.obligations.get? (executionId, exactTarget) = some obligation)
    (hpending : obligation.lifecycle = .pending) (hselects : selects obligation = true)
    (hpublishing : (edit obligation).lifecycle = .publishing)
    (hkey : Record.key intent = (executionId, exactTarget))
    (hinserted : Table.Inserted store.publicationIntents intent intents)
    (hupdated : Table.Updated store.obligations (executionId, exactTarget) selects edit obligations)
    {row : ResponseObligation} (hrow : obligations.get? (executionId, row.exactTarget) = some row) :
    row.lifecycle.validatePublication (intents.get? (executionId, row.exactTarget))
      (store.publicationReceipts.get? (executionId, row.exactTarget)) = .ok () := by
  have hvalid : ∀ {target old}, store.obligations.get? (executionId, target) = some old →
      old.lifecycle.validatePublication (store.publicationIntents.get? (executionId, target))
        (store.publicationReceipts.get? (executionId, target)) = .ok () := by
    intro target old hget
    have hkey := store.obligations.keyed _ _ hget
    have htarget : old.exactTarget = target := congrArg Prod.snd hkey
    have hmem : old ∈ snapshot.obligations := by
      rw [hread.obligations]
      exact Table.mem_selectBy.mpr ⟨hkey ▸ hget, beq_iff_eq.mpr (congrArg Prod.fst hkey)⟩
    rw [← htarget, ← hread.intentFor_eq, ← hread.evidenceFor_eq]
    exact hconsistent.publications old hmem
  cases hupdated with
  | unmatched _ hnone =>
    rw [hnone _ howed] at hselects
    cases hselects
  | changed old hold _ _ _ hget =>
    rw [howed, Option.some.injEq] at hold
    subst hold
    by_cases htarget : row.exactTarget = exactTarget
    · rw [hget, htarget, if_pos rfl, Option.some.injEq] at hrow
      -- a pending obligation has no acknowledgement
      have hnone := hvalid howed
      simp only [hpending, ResponseState.validatePublication,
        ResponseState.validateAcknowledgement, do_eq_ok, exists_const] at hnone
      rw [htarget, hnone.2.2.1, hinserted.get?_eq, if_pos hkey.symm, ← hrow, hpublishing]
      rfl
    · have hne : (executionId, row.exactTarget) ≠ (executionId, exactTarget) :=
        fun hsame => htarget (Prod.mk.inj hsame).2
      rw [hget, if_neg hne] at hrow
      rw [hinserted.get?_eq, hkey, if_neg hne]
      exact hvalid hrow

/-- A frozen reply keeps an active execution coherent. -/
theorem Store.coherent_of_freezeReply {clock : Clock} {draft : ReplyDraft} {exactTarget : String}
    {obligation : ResponseObligation} {result : Applied PublicationIntent}
    (hread : store.Reading executionId snapshot) (hconsistent : snapshot.Consistent)
    (hcurrent : snapshot.isCurrent = true)
    (howed : store.obligations.get? (executionId, exactTarget) = some obligation)
    (hok : freezeReply clock draft snapshot exactTarget obligation store = .ok (store', result)) :
    store'.Coherent executionId := by
  intro _
  simp only [freezeReply, insertPublicationIntent, updateObligation, bind_eq_ok, require_eq_ok,
    accepted_eq_ok, afterWrite_eq_ok, pure_eq_ok, exists_const, hread.executionId_eq] at hok
  obtain ⟨hpending, _, ⟨-, -, intents, hinsert, rfl⟩, _, ⟨-, obligations, hupdate, -, rfl⟩,
    hpair⟩ := hok
  obtain ⟨rfl, -⟩ := Prod.mk.inj hpair
  have hinserted := Table.inserted_of_insert? hinsert
  have hupdated := Table.updated_of_update? hupdate
  generalize hafter : ({ store with publicationIntents := intents, obligations } : Store) = after
  have hintents : after.publicationIntents = intents := by rw [← hafter]
  have hobligations : after.obligations = obligations := by rw [← hafter]
  -- The routes owed are the keys of the obligation table, which did not change.
  have htargets : ∀ target, target ∈ (after.obligationsOf executionId).map
      ResponseObligation.exactTarget ↔
        target ∈ snapshot.obligations.map ResponseObligation.exactTarget := by
    intro target
    rw [hread.obligations, mem_obligationTargets, mem_obligationTargets, hobligations,
      hupdated.isSome_get?]
  have howedMem : exactTarget ∈ snapshot.obligations.map ResponseObligation.exactTarget := by
    rw [hread.obligations, mem_obligationTargets, howed]
    rfl
  have hread' : after.Reading executionId
      { snapshot with obligations := after.obligationsOf executionId
                      publicationIntents := after.intentsOf executionId } := by
    subst hafter
    exact { hread with obligations := rfl, intents := rfl }
  refine ⟨_, Store.get_eq_ok.mpr ⟨hread', { hconsistent with
    obligations := fun row hrow => (obligation_mem hrow).2.trans hread.executionId_eq.symm
    intents := fun row hrow =>
      (beq_iff_eq.mp (Table.mem_selectBy.mp hrow).2).trans hread.executionId_eq.symm
    routes := ?_
    targets := Table.nodup_map_selectBy fun row row' hrow hrow' htarget =>
      Prod.ext ((beq_iff_eq.mp hrow).trans (beq_iff_eq.mp hrow').symm) htarget
    targetsRouted := fun target htarget =>
      hconsistent.targetsRouted target ((htargets target).mp htarget)
    routesOwed := ?_
    intentTargets := Table.nodup_map_selectBy fun row row' hrow hrow' htarget =>
      Prod.ext ((beq_iff_eq.mp hrow).trans (beq_iff_eq.mp hrow').symm) htarget
    intentsRouted := ?_
    publications := ?_
    lifecycle := RecoverySnapshot.validateLifecycle_of_active
      (hconsistent.current.mp hcurrent).2.2.1 hcurrent }⟩⟩
  · have hroutes := hconsistent.routes
    unfold RecoverySnapshot.validateRoutes at hroutes ⊢
    split at hroutes
    · rw [require_eq_ok] at hroutes
      rename_i horigin
      rw [horigin, require_eq_ok]
      refine ⟨hroutes.1, fun hnil => ?_⟩
      have hmem := (htargets exactTarget).mpr howedMem
      rw [show after.obligationsOf executionId = [] from hnil] at hmem
      cases hmem
    · rw [require_eq_ok] at hroutes
      rw [hroutes.2] at howedMem
      cases howedMem
  · intro route hroute
    obtain ⟨target, htarget, rfl⟩ := hconsistent.routesOwed route hroute
    exact ⟨target, (htargets target).mpr htarget, rfl⟩
  · intro row hrow
    obtain ⟨hget, -⟩ := Table.mem_selectBy.mp hrow
    rw [hintents] at hget
    rcases hinserted.get?_cases hget with ⟨hkey, -⟩ | hget
    · rw [show row.exactTarget = exactTarget from congrArg Prod.snd hkey]
      exact hconsistent.targetsRouted _ howedMem
    · refine hconsistent.intentsRouted row ?_
      rw [hread.intents]
      exact Table.mem_selectBy.mpr ⟨hget, (Table.mem_selectBy.mp hrow).2⟩
  · intro row hrow
    obtain ⟨hget, -⟩ := obligation_mem hrow
    rw [hread'.intentFor_eq, hread'.evidenceFor_eq, hintents]
    subst hafter
    exact publications_of_freeze hread hconsistent howed
      (by cases hstate : obligation.lifecycle <;> simp_all [ResponseState.kind])
      (by simp [hpending]) rfl rfl hinserted hupdated hget

end AgentComms.Coordination
