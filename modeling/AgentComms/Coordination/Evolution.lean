import AgentComms.Coordination.Responses

/-!
# What the statements can do

`Writes own witnessed before after` collects what holds over any sequence of
statements that write for one execution: rows are never lost and change only as
their triggers admit, the records of other executions stay as they were, receipts
are added only for `witnessed` messages, the attempt history stays in order, and no
attempt starts. `Evolves` leaves out the last part; it is what a start satisfies.
-/

namespace AgentComms.Coordination

open Library Relation

variable {attempts : Table AttemptRecord} {claims claims' : Table WakeAssignment}

/-! ### Attempt history -/

/-- Attempts are numbered without gaps within the budget, each after the first
succeeds a finally failed one of an older generation, and no token is reused. -/
structure AttemptHistory (attempts : Table AttemptRecord) (executions : Table ExecutionRecord) :
    Prop where
  preceded : ∀ {executionId ordinal row}, attempts.get? (executionId, ordinal) = some row →
    1 < ordinal → ∃ previous, attempts.get? (executionId, ordinal - 1) = some previous ∧
      previous.lifecycle = .terminal .attemptFailed ∧
      previous.ownerGeneration < row.ownerGeneration
  budgeted : ∀ {executionId ordinal row}, attempts.get? (executionId, ordinal) = some row →
    ∃ execution, executions.get? executionId = some execution ∧ ordinal ≤ execution.maxAttempts
  tokens : ∀ {k k' row row'}, attempts.get? k = some row → attempts.get? k' = some row' →
    row.ownerTokenDigest = row'.ownerTokenDigest → k = k'

theorem not_admits_terminal {old new : AttemptRecord} {outcome : Outcome}
    (hold : old.lifecycle = .terminal outcome) : ¬ Record.Admits old new := by
  rintro ⟨-, -, -, -, hedge | ⟨-, hlive⟩⟩
  · rw [hold] at hedge
    cases hedge
  · rw [hold] at hlive
    cases hlive

theorem AttemptHistory.update {attempts' : Table AttemptRecord} {executions : Table ExecutionRecord}
    {k : ExecutionId × Nat} {selects : AttemptRecord → Bool} {edit : AttemptRecord → AttemptRecord}
    (hhistory : AttemptHistory attempts executions)
    (hupdated : Table.Updated attempts k selects edit attempts') :
    AttemptHistory attempts' executions := by
  cases hupdated with
  | unmatched hsame => rwa [hsame]
  | changed old hold hselects hadmits hvalid hget =>
    -- Every row of the new table stands for an old one with the same authority.
    have hback : ∀ {k' row}, attempts'.get? k' = some row →
        ∃ row', attempts.get? k' = some row' ∧ row.authority = row'.authority := by
      intro k' row hrow
      rw [hget] at hrow
      by_cases hk : k' = k
      · rw [if_pos hk, Option.some.injEq] at hrow
        exact ⟨old, hk ▸ hold, hrow ▸ hadmits.1⟩
      · rw [if_neg hk] at hrow
        exact ⟨row, hrow, rfl⟩
    refine ⟨?_, ?_, ?_⟩
    · intro executionId ordinal row hrow hordinal
      obtain ⟨row', hrow', hauthority⟩ := hback hrow
      obtain ⟨previous, hprevious, hfailed, hgeneration⟩ := hhistory.preceded hrow' hordinal
      refine ⟨previous, ?_, hfailed, ?_⟩
      · rw [hget, if_neg, hprevious]
        intro hk
        rw [hk, hold, Option.some.injEq] at hprevious
        exact not_admits_terminal (hprevious ▸ hfailed) hadmits
      · rwa [show row.ownerGeneration = row'.ownerGeneration from
          congrArg AttemptAuthority.ownerGeneration hauthority]
    · intro executionId ordinal row hrow
      obtain ⟨row', hrow', -⟩ := hback hrow
      exact hhistory.budgeted hrow'
    · intro k₁ k₂ row₁ row₂ hrow₁ hrow₂ hdigest
      obtain ⟨row₁', hrow₁', hauthority₁⟩ := hback hrow₁
      obtain ⟨row₂', hrow₂', hauthority₂⟩ := hback hrow₂
      refine hhistory.tokens hrow₁' hrow₂' ?_
      rw [← show row₁.ownerTokenDigest = row₁'.ownerTokenDigest from
          congrArg AttemptAuthority.tokenDigest hauthority₁,
        ← show row₂.ownerTokenDigest = row₂'.ownerTokenDigest from
          congrArg AttemptAuthority.tokenDigest hauthority₂, hdigest]

theorem AttemptHistory.executions {executions executions' : Table ExecutionRecord}
    (hhistory : AttemptHistory attempts executions)
    (hbudget : ∀ {executionId execution}, executions.get? executionId = some execution →
      ∃ execution', executions'.get? executionId = some execution' ∧
        execution'.maxAttempts = execution.maxAttempts) :
    AttemptHistory attempts executions' where
  preceded := hhistory.preceded
  budgeted := by
    intro executionId ordinal row hrow
    obtain ⟨execution, hexecution, hle⟩ := hhistory.budgeted hrow
    obtain ⟨execution', hexecution', hmax⟩ := hbudget hexecution
    exact ⟨execution', hexecution', hmax ▸ hle⟩
  tokens := hhistory.tokens

/-! ### Replay -/

theorem allowsRetry_of_admits {old new : ReplayAssessment} (hadmits : Record.Admits old new)
    (hallows : new.allowsRetry = true) : old.allowsRetry = true := by
  obtain ⟨-, -, hside, hsafe, hfacts⟩ := hadmits
  simp only [ReplayAssessment.allowsRetry, Bool.and_eq_true, beq_iff_eq,
    Bool.not_eq_true'] at hallows ⊢
  obtain ⟨⟨hnewSafe, hnewFacts⟩, hnewSide⟩ := hallows
  refine ⟨⟨hsafe hnewSafe, ?_⟩, ?_⟩
  · rw [hnewFacts] at hfacts
    simpa [ReplayFact.none] using hfacts
  · cases hold : old.sideEffectsPossible with
    | false => rfl
    | true =>
      rw [hside hold] at hnewSide
      cases hnewSide

theorem allowsRetry_of_chain {old new : ReplayAssessment}
    (hchain : ReflTransGen Record.Admits old new) (hallows : new.allowsRetry = true) :
    old.allowsRetry = true := by
  induction hchain with
  | refl => exact hallows
  | tail _ hadmits ih => exact ih (allowsRetry_of_admits hadmits hallows)

/-! ### Dispatches -/

def DispatchesFrozen (dispatches : Table PublicationAppendDispatch)
    (intents : Table PublicationIntent) : Prop :=
  ∀ route, (dispatches.get? route).isSome = true → (intents.get? route).isSome = true

/-! ### Claims -/

def DistinctClaims (claims : Table WakeAssignment) : Prop :=
  ∀ {k k' claim claim'}, claims.get? k = some claim → claims.get? k' = some claim' →
    claim.recipientLookup = claim'.recipientLookup → claim.wireSeq = claim'.wireSeq → k = k'

theorem DistinctClaims.inserted {row : WakeAssignment} (hdistinct : DistinctClaims claims)
    (hinserted : Table.Inserted claims row claims')
    (hfresh : ∀ other ∈ claims.values, ¬ (other.recipientLookup = row.recipientLookup ∧
      other.wireSeq = row.wireSeq)) : DistinctClaims claims' := by
  intro k k' claim claim' hget hget' hlookup hseq
  rcases hinserted.get?_cases hget with ⟨rfl, rfl⟩ | hold <;>
    rcases hinserted.get?_cases hget' with ⟨rfl, rfl⟩ | hold'
  · rfl
  · exact absurd ⟨hlookup.symm, hseq.symm⟩ (hfresh claim' (Table.mem_values_of_get? hold'))
  · exact absurd ⟨hlookup, hseq⟩ (hfresh claim (Table.mem_values_of_get? hold))
  · exact hdistinct hold hold' hlookup hseq

/-- The triggers keep the recipient and the message of a claim. -/
theorem DistinctClaims.updated {k : AssignmentId} {selects : WakeAssignment → Bool}
    {edit : WakeAssignment → WakeAssignment} (hdistinct : DistinctClaims claims)
    (hupdated : Table.Updated claims k selects edit claims') : DistinctClaims claims' := by
  cases hupdated with
  | unmatched hsame => rwa [hsame]
  | changed old hold hselects hadmits hvalid hget =>
    have hback : ∀ {key claim}, claims'.get? key = some claim → ∃ claim₀,
        claims.get? key = some claim₀ ∧ claim.recipientLookup = claim₀.recipientLookup ∧
          claim.wireSeq = claim₀.wireSeq := by
      intro key claim hclaim
      rw [hget] at hclaim
      by_cases hk : key = k
      · rw [if_pos hk, Option.some.injEq] at hclaim
        obtain ⟨-, -, hlookup, hseq, -⟩ := hadmits.1
        exact ⟨old, hk ▸ hold, hclaim ▸ hlookup, hclaim ▸ hseq⟩
      · rw [if_neg hk] at hclaim
        exact ⟨claim, hclaim, rfl, rfl⟩
    intro key key' claim claim' hclaim hclaim' hlookup hseq
    obtain ⟨claim₀, hclaim₀, hlookup₀, hseq₀⟩ := hback hclaim
    obtain ⟨claim₁, hclaim₁, hlookup₁, hseq₁⟩ := hback hclaim'
    exact hdistinct hclaim₀ hclaim₁ (hlookup₀ ▸ hlookup₁ ▸ hlookup) (hseq₀ ▸ hseq₁ ▸ hseq)

/-! ### Evolution of a store -/

def CurrentExecution.Within (own : Option ExecutionId) (pointer : CurrentExecution) : Prop :=
  pointer.executionId = none ∨ pointer.executionId = own

def WakeAssignment.Within (own : Option ExecutionId) (claim : WakeAssignment) : Prop :=
  claim.lifecycle.executionId = none ∨ claim.lifecycle.executionId = own

/-- A claim written for an execution is not pending. -/
def WakeAssignment.WrittenFor (own : Option ExecutionId) (claim : WakeAssignment) : Prop :=
  own = none ∨ claim.lifecycle.isPending = false

def Store.currentOrdinal (store : Store) (executionId : ExecutionId) : Option Nat :=
  (store.executions.get? executionId).bind (·.lifecycle.currentAttemptOrdinal)

structure Evolves (own : Option ExecutionId) (witnessed : PublicationEvidence → Prop)
    (before after : Store) : Prop where
  participants : Table.Evolves (fun _ => True) (fun _ => True)
    before.participants after.participants
  ownerGenerations : Table.Evolves (fun _ => True) (fun _ => True)
    before.ownerGenerations after.ownerGenerations
  currentExecutions : Table.Evolves (CurrentExecution.Within own) (CurrentExecution.Within own)
    before.currentExecutions after.currentExecutions
  executions : Table.Evolves (fun row => own = some row.executionId)
    (fun row => own = some row.executionId) before.executions after.executions
  replayAssessments : Table.Evolves (fun row => own = some row.executionId)
    (fun row => own = some row.executionId) before.replayAssessments after.replayAssessments
  attempts : Table.Evolves (fun row => own = some row.executionId)
    (fun row => own = some row.executionId) before.attempts after.attempts
  wakeClaims : Table.Evolves (WakeAssignment.Within own) (WakeAssignment.WrittenFor own)
    before.wakeClaims after.wakeClaims
  executionClaims : Table.Evolves (fun row => own = some row.executionId)
    (fun row => own = some row.executionId) before.executionClaims after.executionClaims
  obligations : Table.Evolves (fun row => own = some row.executionId)
    (fun row => own = some row.executionId) before.obligations after.obligations
  publicationIntents : Table.Evolves (fun row => own = some row.executionId)
    (fun row => own = some row.executionId) before.publicationIntents after.publicationIntents
  publicationReceipts : Table.Evolves (fun row => own = some row.executionId)
    (fun row => own = some row.executionId ∧ witnessed row) before.publicationReceipts
    after.publicationReceipts
  appendDispatches : Table.Evolves (fun row => own = some row.executionId)
    (fun row => own = some row.executionId) before.appendDispatches after.appendDispatches
  recoveryAudits : Table.Evolves (fun row => own = some row.executionId)
    (fun row => own = some row.executionId) before.recoveryAudits after.recoveryAudits
  history : AttemptHistory before.attempts before.executions →
    AttemptHistory after.attempts after.executions
  frozen : DispatchesFrozen before.appendDispatches before.publicationIntents →
    DispatchesFrozen after.appendDispatches after.publicationIntents
  distinct : DistinctClaims before.wakeClaims → DistinctClaims after.wakeClaims

structure Writes (own : Option ExecutionId) (witnessed : PublicationEvidence → Prop)
    (before after : Store) : Prop extends Evolves own witnessed before after where
  keys : ∀ k, (after.attempts.get? k).isSome = (before.attempts.get? k).isSome
  ordinals : ∀ executionId,
    (after.executions.get? executionId).bind (·.lifecycle.currentAttemptOrdinal) =
      (before.executions.get? executionId).bind (·.lifecycle.currentAttemptOrdinal)

variable {own : Option ExecutionId} {witnessed : PublicationEvidence → Prop}
  {before middle after store store' : Store}

theorem Evolves.trans (hfirst : Evolves own witnessed before middle)
    (hsecond : Evolves own witnessed middle after) : Evolves own witnessed before after where
  participants := hfirst.participants.trans hsecond.participants
  ownerGenerations := hfirst.ownerGenerations.trans hsecond.ownerGenerations
  currentExecutions := hfirst.currentExecutions.trans hsecond.currentExecutions
  executions := hfirst.executions.trans hsecond.executions
  replayAssessments := hfirst.replayAssessments.trans hsecond.replayAssessments
  attempts := hfirst.attempts.trans hsecond.attempts
  wakeClaims := hfirst.wakeClaims.trans hsecond.wakeClaims
  executionClaims := hfirst.executionClaims.trans hsecond.executionClaims
  obligations := hfirst.obligations.trans hsecond.obligations
  publicationIntents := hfirst.publicationIntents.trans hsecond.publicationIntents
  publicationReceipts := hfirst.publicationReceipts.trans hsecond.publicationReceipts
  appendDispatches := hfirst.appendDispatches.trans hsecond.appendDispatches
  recoveryAudits := hfirst.recoveryAudits.trans hsecond.recoveryAudits
  history := fun hhistory => hsecond.history (hfirst.history hhistory)
  frozen := fun hfrozen => hsecond.frozen (hfirst.frozen hfrozen)
  distinct := fun hdistinct => hsecond.distinct (hfirst.distinct hdistinct)

theorem Writes.refl (store : Store) : Writes own witnessed store store where
  participants := Table.Evolves.refl _
  ownerGenerations := Table.Evolves.refl _
  currentExecutions := Table.Evolves.refl _
  executions := Table.Evolves.refl _
  replayAssessments := Table.Evolves.refl _
  attempts := Table.Evolves.refl _
  wakeClaims := Table.Evolves.refl _
  executionClaims := Table.Evolves.refl _
  obligations := Table.Evolves.refl _
  publicationIntents := Table.Evolves.refl _
  publicationReceipts := Table.Evolves.refl _
  appendDispatches := Table.Evolves.refl _
  recoveryAudits := Table.Evolves.refl _
  history := id
  frozen := id
  distinct := id
  keys := fun _ => rfl
  ordinals := fun _ => rfl

theorem Writes.trans (hfirst : Writes own witnessed before middle)
    (hsecond : Writes own witnessed middle after) : Writes own witnessed before after where
  toEvolves := hfirst.toEvolves.trans hsecond.toEvolves
  keys := fun k => (hsecond.keys k).trans (hfirst.keys k)
  ordinals := fun executionId => (hsecond.ordinals executionId).trans (hfirst.ordinals executionId)

theorem Writes.of_foldlM {α : Type} {step : Store → α → Checked Store}
    {items : List α} (hstep : ∀ item ∈ items, ∀ s t, step s item = .ok t → Writes own witnessed s t)
    (hrun : items.foldlM step before = .ok after) : Writes own witnessed before after :=
  foldlM_invariant (Writes own witnessed before)
    (fun item hitem s t hs hok => hs.trans (hstep item hitem s t hok)) (Writes.refl before) hrun

/-! ### One lemma for each statement -/

namespace Store

variable {executionId : ExecutionId} {row : AttemptRecord} {lookup : ThreadLookup}
  {selects : ExecutionRecord → Bool} {edit : ExecutionRecord → ExecutionRecord}

@[simp] theorem accepted_eq_ok {ρ κ : Type} [DecidableEq κ] [Record ρ κ] {name : String}
    {written : Option (Table ρ)} {table : Table ρ} :
    accepted name written = .ok table ↔ written = some table := orRefuse_eq_ok

@[simp] theorem afterWrite_eq_ok {name : String} {matched : Bool} {written : Store}
    : afterWrite name executionId matched written = .ok store ↔
      (matched = false ∨ written.retryPartitioned executionId = true) ∧ written = store := by
  simp only [afterWrite, do_eq_ok, exists_const]

theorem insertParticipant_writes {row : Participant}
    (hok : store.insertParticipant row = .ok store') : Writes own witnessed store store' := by
  simp only [insertParticipant, do_eq_ok, accepted_eq_ok] at hok
  obtain ⟨table, hinsert, rfl⟩ := hok
  exact { Writes.refl store with
    participants := (Table.inserted_of_insert? hinsert).evolves trivial }

theorem commitParticipant_writes (hok : store.commitParticipant lookup = .ok store')
    : Writes own witnessed store store' := by
  simp only [commitParticipant, do_eq_ok, accepted_eq_ok] at hok
  obtain ⟨table, hupdate, rfl⟩ := hok
  exact { Writes.refl store with
    participants := (Table.updated_of_update? hupdate).evolves fun _ _ _ _ => ⟨trivial, trivial⟩ }

theorem insertOwnerGeneration_writes {row : OwnerGeneration}
    (hok : store.insertOwnerGeneration row = .ok store') : Writes own witnessed store store' := by
  simp only [insertOwnerGeneration, do_eq_ok, accepted_eq_ok] at hok
  obtain ⟨-, -, table, hinsert, rfl⟩ := hok
  exact { Writes.refl store with
    ownerGenerations := (Table.inserted_of_insert? hinsert).evolves trivial }

theorem advanceOwnerGeneration_writes {expected : Nat}
    (hok : store.advanceOwnerGeneration lookup expected = .ok store') :
    Writes own witnessed store store' := by
  simp only [advanceOwnerGeneration, do_eq_ok, accepted_eq_ok] at hok
  obtain ⟨-, -, table, hupdate, rfl⟩ := hok
  exact { Writes.refl store with
    ownerGenerations :=
      (Table.updated_of_update? hupdate).evolves fun _ _ _ _ => ⟨trivial, trivial⟩ }

theorem insertCurrentExecution_writes {row : CurrentExecution}
    (hok : store.insertCurrentExecution row = .ok store') (hidle : row.executionId = none) :
    Writes own witnessed store store' := by
  simp only [insertCurrentExecution, do_eq_ok, accepted_eq_ok] at hok
  obtain ⟨-, -, table, hinsert, rfl⟩ := hok
  exact { Writes.refl store with
    currentExecutions := (Table.inserted_of_insert? hinsert).evolves (.inl hidle) }

/-- A pointer moves between idle and the execution being written. -/
theorem updateCurrentExecution_writes {selects : CurrentExecution → Bool}
    {pointed : Option (ExecutionId × Nat)} {revision : Nat}
    (hok : store.updateCurrentExecution lookup selects pointed revision = .ok store')
    (hpointed : pointed.map Prod.fst = none ∨ pointed.map Prod.fst = own)
    (hold : ∀ pointer, store.currentExecutions.get? lookup = some pointer →
      selects pointer = true → pointer.Within own) : Writes own witnessed store store' := by
  simp only [updateCurrentExecution, do_eq_ok, accepted_eq_ok] at hok
  obtain ⟨table, hupdate, rfl⟩ := hok
  exact { Writes.refl store with
    currentExecutions := (Table.updated_of_update? hupdate).evolves
      fun pointer hget hselects _ => ⟨hold pointer hget hselects, hpointed⟩ }

theorem insertExecution_writes {row : ExecutionRecord}
    (hok : store.insertExecution row = .ok store') (hown : own = some row.executionId)
    (hordinal : row.lifecycle.currentAttemptOrdinal = none) :
    Writes own witnessed store store' := by
  simp only [insertExecution, do_eq_ok, accepted_eq_ok] at hok
  obtain ⟨-, -, table, hinsert, rfl⟩ := hok
  have hinserted := Table.inserted_of_insert? hinsert
  have hevolves : Table.Evolves (fun row => own = some row.executionId)
      (fun row => own = some row.executionId) store.executions table := hinserted.evolves hown
  refine { Writes.refl store with
    executions := hevolves
    history := fun hhistory => hhistory.executions fun hget => ?_
    ordinals := ?_ }
  · exact ⟨_, hinserted.kept hget, rfl⟩
  · intro executionId
    show (table.get? executionId).bind _ = _
    rw [hinserted.get?_eq]
    by_cases hk : executionId = Record.key row
    · rw [if_pos hk, hk, hinserted.fresh]
      exact hordinal
    · rw [if_neg hk]

/-- A row of the execution, and what replaces it. -/
theorem owned_of_update {id id' : ExecutionId} (hkey : id = executionId) (hkept : id' = id) :
    some executionId = some id ∧ some executionId = some id' :=
  ⟨congrArg some hkey.symm, congrArg some (hkept.trans hkey).symm⟩

theorem updateExecution_evolves (hok : store.updateExecution executionId selects edit = .ok store')
    : Evolves (some executionId) witnessed store store' := by
  simp only [updateExecution, do_eq_ok, accepted_eq_ok] at hok
  obtain ⟨-, -, table, hupdate, rfl⟩ := hok
  have hupdated := Table.updated_of_update? hupdate
  exact { (Writes.refl store).toEvolves with
    executions := hupdated.evolves fun row hget _ hadmits =>
      owned_of_update (store.executions.keyed _ _ hget) hadmits.1
    history := fun hhistory => hhistory.executions fun {k execution} hget => by
      -- the triggers keep the budget of an execution
      cases hupdated with
      | unmatched hsame => exact ⟨execution, hsame ▸ hget, rfl⟩
      | changed old hold hselects hadmits hvalid hget' =>
        by_cases hk : k = executionId
        · subst hk
          rw [hold, Option.some.injEq] at hget
          exact ⟨edit old, by rw [hget', if_pos rfl], hget ▸ hadmits.2.2.2.1⟩
        · exact ⟨execution, by rw [hget', if_neg hk, hget], rfl⟩ }

theorem updateExecution_writes (hok : store.updateExecution executionId selects edit = .ok store')
    (hactive : ∀ row, (edit row).lifecycle.kind ≠ .active) :
    Writes (some executionId) witnessed store store' := by
  have hevolves : Evolves (some executionId) witnessed store store' := updateExecution_evolves hok
  simp only [updateExecution, do_eq_ok, accepted_eq_ok] at hok
  obtain ⟨-, -, table, hupdate, rfl⟩ := hok
  refine { toEvolves := hevolves, keys := fun _ => rfl, ordinals := fun k => ?_ }
  show (table.get? k).bind _ = _
  cases Table.updated_of_update? hupdate with
  | unmatched hsame => rw [hsame]
  | changed old hold hselects hadmits hvalid hget =>
    rw [hget]
    by_cases hk : k = executionId
    · rw [if_pos hk, hk, hold]
      -- only a start advances the ordinal of an execution
      obtain ⟨-, -, -, -, -, -, -, -, haccepts⟩ := hadmits
      have hnot := hactive old
      cases hlifecycle : (edit old).lifecycle <;>
        simp_all [ExecutionState.acceptsPrevious, ExecutionState.kind]
    · rw [if_neg hk]

/-- What the insert triggers of an accepted attempt checked. -/
structure AttemptInserted (store : Store) (row : AttemptRecord) (store' : Store) : Prop where
  inserted : Table.Inserted store.attempts row store'.attempts
  others : store' = { store with attempts := store'.attempts }
  budget : ∃ execution, store.executions.get? row.executionId = some execution ∧
    row.attemptOrdinal ≤ execution.maxAttempts
  next : row.attemptOrdinal = 1 + store.lastAttemptOrdinal row.executionId
  retry : 1 < row.attemptOrdinal → store.retryBasis row.executionId = true ∧
    ∃ previous, store.attempts.get? (row.executionId, row.attemptOrdinal - 1) = some previous ∧
      previous.lifecycle = .terminal .attemptFailed ∧
      previous.ownerGeneration < row.ownerGeneration
  token : ∀ other ∈ store.attempts.values, other.ownerTokenDigest ≠ row.ownerTokenDigest

theorem attemptInserted_of_insertAttempt (hok : store.insertAttempt row = .ok store')
    : AttemptInserted store row store' := by
  simp only [insertAttempt, do_eq_ok, accepted_eq_ok, exists_const] at hok
  obtain ⟨hexecution, -, -, hbasis, hprevious, ⟨-, htoken⟩, table, hinsert, rfl⟩ := hok
  obtain ⟨execution, hget, hguard⟩ := (Option.any_eq_true _ _).mp hexecution
  simp only [Bool.and_eq_true, decide_eq_true_eq, beq_iff_eq] at hguard
  refine ⟨Table.inserted_of_insert? hinsert, rfl, ⟨execution, hget, hguard.1.1.2⟩, hguard.2,
    fun hordinal => ?_, ?_⟩
  · obtain ⟨hauthorized, -⟩ := hbasis.resolve_left (by omega)
    obtain ⟨previous, hget', hfinal⟩ :=
      (Option.any_eq_true _ _).mp (hprevious.resolve_left (by omega))
    simp only [Bool.and_eq_true, decide_eq_true_eq] at hfinal
    refine ⟨hauthorized, previous, hget', ?_, hfinal.1.2⟩
    -- Only `AttemptFailed` precedes a retry.
    have hpermits := hfinal.1.1.1.1
    cases hlifecycle : previous.lifecycle with
    | live =>
      rw [hlifecycle] at hpermits
      cases hpermits
    | terminal outcome =>
      rw [hlifecycle] at hpermits
      cases outcome <;> first | rfl | cases hpermits
  · intro other hmem
    simpa using List.all_eq_true.mp htoken other hmem

theorem insertAttempt_evolves (hok : store.insertAttempt row = .ok store')
    (hown : own = some row.executionId) : Evolves own witnessed store store' := by
  have hinsert := attemptInserted_of_insertAttempt hok
  obtain ⟨execution, hexecution, hbudget⟩ := hinsert.budget
  have hinserted := hinsert.inserted
  rw [hinsert.others]
  refine { (Writes.refl store).toEvolves with
    attempts := hinserted.evolves hown, history := ?_ }
  intro hhistory
  refine ⟨?_, ?_, ?_⟩
  · intro executionId ordinal stored hget hordinal
    rcases hinserted.get?_cases hget with ⟨hkey, rfl⟩ | hget
    · obtain ⟨rfl, rfl⟩ := Prod.mk.inj hkey
      obtain ⟨-, previous, hprevious, hfailed, hgeneration⟩ := hinsert.retry hordinal
      exact ⟨previous, hinserted.kept hprevious, hfailed, hgeneration⟩
    · obtain ⟨previous, hprevious, hfailed⟩ := hhistory.preceded hget hordinal
      exact ⟨previous, hinserted.kept hprevious, hfailed⟩
  · intro executionId ordinal stored hget
    rcases hinserted.get?_cases hget with ⟨hkey, rfl⟩ | hget
    · obtain ⟨rfl, rfl⟩ := Prod.mk.inj hkey
      exact ⟨execution, hexecution, hbudget⟩
    · exact hhistory.budgeted hget
  · intro k k' stored stored' hget hget' hdigest
    rcases hinserted.get?_cases hget with ⟨rfl, rfl⟩ | hget <;>
      rcases hinserted.get?_cases hget' with ⟨rfl, rfl⟩ | hget'
    · rfl
    · exact absurd hdigest.symm (hinsert.token _ (Table.mem_values_of_get? hget'))
    · exact absurd hdigest (hinsert.token _ (Table.mem_values_of_get? hget))
    · exact hhistory.tokens hget hget' hdigest

theorem updateAttempt_writes {ordinal : Nat} {selects : AttemptRecord → Bool}
    {edit : AttemptRecord → AttemptRecord}
    (hok : store.updateAttempt executionId ordinal selects edit = .ok store') :
    Writes (some executionId) witnessed store store' := by
  simp only [updateAttempt, do_eq_ok, accepted_eq_ok] at hok
  obtain ⟨table, hupdate, rfl⟩ := hok
  have hupdated := Table.updated_of_update? hupdate
  exact { Writes.refl store with
    attempts := hupdated.evolves fun row hget _ hadmits => owned_of_update
      (congrArg Prod.fst (store.attempts.keyed _ _ hget))
      (congrArg AttemptAuthority.executionId hadmits.1)
    history := fun hhistory => hhistory.update hupdated
    keys := hupdated.isSome_get? }

theorem insertWakeClaim_writes {row : WakeAssignment}
    (hok : store.insertWakeClaim row = .ok store') : Writes none witnessed store store' := by
  simp only [insertWakeClaim, bind_eq_ok, accepted_eq_ok, pure_eq_ok] at hok
  obtain ⟨_, hfresh, table, hinsert, rfl⟩ := hok
  have hinserted := Table.inserted_of_insert? hinsert
  refine { Writes.refl store with
    wakeClaims := hinserted.evolves (.inl rfl)
    distinct := fun hdistinct => hdistinct.inserted hinserted fun other hother hsame => ?_ }
  have hnone := List.all_eq_true.mp (require_eq_ok.mp hfresh).2.2 other hother
  simp [hsame.1, hsame.2] at hnone

/-- A claim's binding is written once, so a claim written for this execution was
unbound or bound to it before. -/
theorem updateWakeClaim_writes {assignmentId : AssignmentId} {selects : WakeAssignment → Bool}
    {lifecycle : AssignmentState} {revision : Nat} {updatedAt : Time}
    (hok : store.updateWakeClaim assignmentId selects lifecycle revision updatedAt = .ok store')
    (hwithin : lifecycle.executionId = none ∨ lifecycle.executionId = own)
    (hwritten : own = none ∨ lifecycle.isPending = false) : Writes own witnessed store store' := by
  simp only [updateWakeClaim, do_eq_ok, accepted_eq_ok] at hok
  obtain ⟨-, -, table, hupdate, rfl⟩ := hok
  refine { Writes.refl store with
    wakeClaims := (Table.updated_of_update? hupdate).evolves fun row _ _ hadmits => ⟨?_, hwritten⟩
    distinct := fun hdistinct => hdistinct.updated (Table.updated_of_update? hupdate) }
  obtain ⟨-, ⟨-, hbinding, -, -⟩, -, -⟩ := hadmits
  cases hrow : row.lifecycle.executionId with
  | none => exact .inl hrow
  | some =>
    have hsame : lifecycle.executionId = row.lifecycle.executionId := hbinding (by rw [hrow]; rfl)
    rw [hsame, hrow] at hwithin
    rcases hwithin with hnone | hown
    · cases hnone
    · exact .inr (hrow.trans hown)

theorem insertExecutionClaim_writes {row : ExecutionAssignmentLink}
    (hok : store.insertExecutionClaim row = .ok store') (hown : own = some row.executionId) :
    Writes own witnessed store store' := by
  simp only [insertExecutionClaim, do_eq_ok, accepted_eq_ok] at hok
  obtain ⟨-, -, -, -, table, hinsert, rfl⟩ := hok
  exact { Writes.refl store with
    executionClaims := (Table.inserted_of_insert? hinsert).evolves hown }

theorem insertObligation_writes {row : ResponseObligation}
    (hok : store.insertObligation row = .ok store') (hown : own = some row.executionId) :
    Writes own witnessed store store' := by
  simp only [insertObligation, bind_eq_ok, accepted_eq_ok, afterWrite_eq_ok] at hok
  obtain ⟨-, -, -, -, table, hinsert, -, rfl⟩ := hok
  exact { Writes.refl store with
    obligations := (Table.inserted_of_insert? hinsert).evolves hown }

theorem updateObligation_writes {exactTarget : String} {selects : ResponseObligation → Bool}
    {edit : ResponseObligation → ResponseObligation}
    (hok : store.updateObligation executionId exactTarget selects edit = .ok store') :
    Writes (some executionId) witnessed store store' := by
  simp only [updateObligation, bind_eq_ok, accepted_eq_ok, afterWrite_eq_ok] at hok
  obtain ⟨-, -, table, hupdate, -, rfl⟩ := hok
  exact { Writes.refl store with
    obligations := (Table.updated_of_update? hupdate).evolves fun row hget _ hadmits =>
      owned_of_update (congrArg Prod.fst (store.obligations.keyed _ _ hget))
        (congrArg Prod.fst hadmits.1) }

theorem insertReplayAssessment_writes {row : ReplayAssessment}
    (hok : store.insertReplayAssessment row = .ok store') (hown : own = some row.executionId) :
    Writes own witnessed store store' := by
  simp only [insertReplayAssessment, bind_eq_ok, accepted_eq_ok, afterWrite_eq_ok] at hok
  obtain ⟨-, -, table, hinsert, -, rfl⟩ := hok
  exact { Writes.refl store with
    replayAssessments := (Table.inserted_of_insert? hinsert).evolves hown }

theorem updateReplayAssessment_writes {edit : ReplayAssessment → ReplayAssessment}
    (hok : store.updateReplayAssessment executionId edit = .ok store') :
    Writes (some executionId) witnessed store store' := by
  simp only [updateReplayAssessment, bind_eq_ok, accepted_eq_ok, afterWrite_eq_ok] at hok
  obtain ⟨table, hupdate, -, rfl⟩ := hok
  exact { Writes.refl store with
    replayAssessments := (Table.updated_of_update? hupdate).evolves fun row hget _ hadmits =>
      owned_of_update (store.replayAssessments.keyed _ _ hget) hadmits.1 }

theorem insertPublicationIntent_writes {row : PublicationIntent}
    (hok : store.insertPublicationIntent row = .ok store') (hown : own = some row.executionId) :
    Writes own witnessed store store' := by
  simp only [insertPublicationIntent, do_eq_ok, accepted_eq_ok] at hok
  obtain ⟨-, -, -, -, table, hinsert, rfl⟩ := hok
  have hinserted := Table.inserted_of_insert? hinsert
  exact { Writes.refl store with
    publicationIntents := hinserted.evolves hown
    frozen := fun hfrozen route hroute =>
      (hinserted.isSome_get? route).mpr (.inr (hfrozen route hroute)) }

theorem insertPublicationReceipt_writes {row : PublicationEvidence}
    (hok : store.insertPublicationReceipt row = .ok store') (hown : own = some row.executionId)
    (hwitnessed : witnessed row) : Writes own witnessed store store' := by
  simp only [insertPublicationReceipt, do_eq_ok, accepted_eq_ok] at hok
  obtain ⟨-, -, -, -, -, -, -, -, table, hinsert, rfl⟩ := hok
  exact { (Writes.refl store : Writes own witnessed store store) with
    publicationReceipts := (Table.inserted_of_insert? hinsert).evolves ⟨hown, hwitnessed⟩ }

theorem insertAppendDispatch_writes {row : PublicationAppendDispatch}
    (hok : store.insertAppendDispatch row = .ok store') (hown : own = some row.executionId) :
    Writes own witnessed store store' := by
  simp only [insertAppendDispatch, do_eq_ok, accepted_eq_ok, exists_const] at hok
  obtain ⟨hintent, table, hinsert, rfl⟩ := hok
  have hinserted := Table.inserted_of_insert? hinsert
  refine { Writes.refl store with
    appendDispatches := hinserted.evolves hown
    frozen := fun hfrozen route hroute => ?_ }
  rcases (hinserted.isSome_get? route).mp hroute with rfl | hbefore
  · exact hintent
  · exact hfrozen route hbefore

theorem insertRecoveryAudit_writes {row : RecoveryAudit}
    (hok : store.insertRecoveryAudit row = .ok store') (hown : own = some row.executionId) :
    Writes own witnessed store store' := by
  simp only [insertRecoveryAudit, do_eq_ok, accepted_eq_ok] at hok
  obtain ⟨-, -, table, hinsert, rfl⟩ := hok
  exact { Writes.refl store with
    recoveryAudits := (Table.inserted_of_insert? hinsert).evolves hown }

end Store

end AgentComms.Coordination
