import AgentComms.Coordination.Lifecycle

/-!
# Stale holders

A fence is the authority of an attempt and the revision its holder last saw. The three
calls that end or advance an attempt under a fence check it against the stored records, and
the records only move away from a fence once they have left it: the revision of an attempt
only grows, a settled attempt is never written again and the ordinals of an execution only
grow. A prepared start is found again by its token, so its replay writes nothing.
-/

namespace AgentComms.Coordination

open Library Relation

variable {store store' : Store} {fence : OwnerFence} {executionId : ExecutionId} {clock : Clock}
  {request : AttemptStart} {snapshot : RecoverySnapshot} {result : Applied StartResult}
  {ops : List CoordinatorOp}

/-! ### The records of an attempt -/

namespace AttemptRecord

variable {attempt later : AttemptRecord}

structure Follows (attempt later : AttemptRecord) : Prop where
  authority : later.authority = attempt.authority
  created : later.createdAt = attempt.createdAt
  revision : attempt.revision ≤ later.revision
  settled : attempt.lifecycle.isLive = false → later = attempt

theorem live_of_admits (hadmits : Record.Admits attempt later) :
    attempt.lifecycle.isLive = true := by
  obtain ⟨-, -, -, -, hbecomes | ⟨-, hlive⟩⟩ := hadmits
  · cases hstate : attempt.lifecycle with
    | live => rfl
    | terminal =>
      rw [hstate] at hbecomes
      cases hbecomes
  · exact hlive

theorem follows_of_chain (hchain : ReflTransGen Record.Admits attempt later) :
    Follows attempt later := by
  induction hchain with
  | refl => exact ⟨rfl, rfl, Nat.le_refl _, fun _ => rfl⟩
  | tail _ hadmits ih =>
    obtain ⟨hauthority, hcreated, hrevision, -⟩ := id hadmits
    refine ⟨hauthority.trans ih.authority, hcreated.trans ih.created, ?_, ?_⟩
    · exact ih.revision.trans (hrevision ▸ Nat.le_succ _)
    · intro hfinal
      have hlive := live_of_admits hadmits
      rw [ih.settled hfinal, hfinal] at hlive
      cases hlive

end AttemptRecord

namespace Coordinator

variable {ρ κ : Type} [DecidableEq κ] [Record ρ κ]

/-- After a run every row is there, with admitted updates only. -/
def Keeps (coordinator : Coordinator) (more : List CoordinatorOp) (table : Store → Table ρ) :
    Prop :=
  ∀ k row, (table coordinator.store).get? k = some row →
    ∃ later, (table (run perform more coordinator).store).get? k = some later ∧
      ReflTransGen Record.Admits row later ∧ ((∀ new, ¬ Record.Admits row new) → later = row)

theorem keeps_of_evolves {table : Store → Table ρ}
    (hkept : ∀ {own witnessed before after}, Evolves own witnessed before after →
      ∀ {k row}, (table before).get? k = some row →
        ∃ later, (table after).get? k = some later ∧ ReflTransGen Record.Admits row later)
    (coordinator : Coordinator) (more : List CoordinatorOp) : coordinator.Keeps more table := by
  intro k row hget
  refine (run_invariant (fun later : Coordinator => ∃ found,
    (table later.store).get? k = some found ∧ ReflTransGen Record.Admits row found) ?_ more
    ⟨row, hget, .refl⟩).imp fun _ h => ⟨h.1, h.2, fun hnone => (reflTransGen_iff_eq hnone).mp h.2⟩
  rintro _ _ _ ⟨found, hfound, hchain⟩ hok
  obtain ⟨_, hevolves⟩ := evolves_of_transition (transition_of_perform hok).1
  exact (hkept hevolves hfound).imp fun _ => And.imp_right hchain.trans

theorem attempts_of_run (more : List CoordinatorOp) (coordinator : Coordinator)
    {k : ExecutionId × Nat} {attempt : AttemptRecord}
    (hget : coordinator.store.attempts.get? k = some attempt) :
    ∃ later, (run perform more coordinator).store.attempts.get? k = some later ∧
      attempt.Follows later := by
  obtain ⟨later, hlater, hchain, -⟩ :=
    keeps_of_evolves (fun h => h.attempts.kept) coordinator more k attempt hget
  exact ⟨later, hlater, AttemptRecord.follows_of_chain hchain⟩

/-- No record of an execution or of its replies is lost, and a settled one stays as it is. -/
theorem keeps_records (coordinator : Coordinator) (more : List CoordinatorOp) :
    coordinator.Keeps more Store.executions ∧ coordinator.Keeps more Store.executionClaims ∧
      coordinator.Keeps more Store.replayAssessments ∧ coordinator.Keeps more Store.obligations ∧
      coordinator.Keeps more Store.publicationIntents ∧
      coordinator.Keeps more Store.appendDispatches ∧
      coordinator.Keeps more Store.publicationReceipts ∧
      coordinator.Keeps more Store.recoveryAudits := by
  refine ⟨?_, ?_, ?_, ?_, ?_, ?_, ?_, ?_⟩ <;> refine keeps_of_evolves (fun h => ?_) coordinator more
  exacts [h.executions.kept, h.executionClaims.kept, h.replayAssessments.kept, h.obligations.kept,
    h.publicationIntents.kept, h.appendDispatches.kept, h.publicationReceipts.kept,
    h.recoveryAudits.kept]

theorem attemptsNumbered_of_reached (ops : List CoordinatorOp) :
    (reached ops).store.AttemptsNumbered :=
  run_invariant (fun coordinator : Coordinator => coordinator.store.AttemptsNumbered)
    (fun _ _ _ hnumbered hok =>
      attemptsNumbered_of_transition hnumbered (transition_of_perform hok).1)
    ops (attemptsNumbered_reached [])

theorem coherent_of_reached (ops : List CoordinatorOp) (executionId : ExecutionId) :
    (reached ops).store.Coherent executionId :=
  run_invariant (fun coordinator : Coordinator =>
      ∀ executionId, coordinator.store.Coherent executionId)
    (fun _ _ _ hcoherent hok => coherent_of_transition hcoherent (transition_of_perform hok).1)
    ops (coherent_reached []) executionId

end Coordinator

/-! ### Fences -/

def Op.fence? : Op → Option OwnerFence
  | .advance _ fence _ _ _ _ _ _ => some fence
  | .failUnknown _ fence _ _ => some fence
  | .settleNonpublication _ fence _ _ _ _ _ => some fence
  | _ => none

/-- The fence names the attempt its owner's pointer names, with the authority and the
revision stored for it, and its owner's generation. -/
structure OwnerFence.Current (fence : OwnerFence) (store : Store) : Prop where
  attempt : ∃ attempt, store.attempts.get? (fence.executionId, fence.attemptOrdinal) =
    some attempt ∧ attempt.authority = fence.authority ∧ attempt.revision = fence.revision ∧
      attempt.lifecycle.isLive = true
  pointed : store.pointed fence.ownerLookup = some (fence.executionId, fence.attemptOrdinal)
  generation : store.ownerGenerations.get? fence.ownerLookup =
    some ⟨fence.ownerLookup, fence.ownerGeneration⟩
  last : store.currentOrdinal fence.executionId = some fence.attemptOrdinal

theorem OwnerFence.current_of_requireFence {checked : RecoverySnapshot × AttemptRecord}
    (hok : store.requireFence fence = .ok checked) : fence.Current store := by
  simp only [Store.requireFence, RecoverySnapshot.requireCurrentAttempt,
    RecoverySnapshot.requireAttempt, Store.participant, do_eq_ok, exists_const] at hok
  obtain ⟨snapshot, hget, attempt, ⟨hcurrent, hattempt⟩, _, ⟨person, -, generation, hgeneration,
    pointer, hpointer, rfl⟩, ⟨hauthority, hsame⟩, hrevision, -⟩ := hok
  obtain ⟨hread, hconsistent⟩ := Store.get_eq_ok.mp hget
  obtain ⟨hid, hordinal, hlookup⟩ := hconsistent.attemptIdentity attempt hattempt
  obtain ⟨hexecution, hpointed, -, hlive⟩ := hconsistent.current.mp hcurrent
  have hlast : store.currentOrdinal fence.executionId = some attempt.attemptOrdinal := by
    rw [Store.currentOrdinal, hread.execution, Option.bind_some, hordinal]
  have hkey : fence.attemptOrdinal = attempt.attemptOrdinal :=
    congrArg AttemptAuthority.ordinal hauthority.symm
  have howner : fence.ownerLookup = attempt.ownerLookup :=
    congrArg AttemptAuthority.ownerLookup hauthority.symm
  refine ⟨⟨attempt, ?_, hauthority, hrevision, ?_⟩, ?_, ?_, ?_⟩
  · have hstored := hread.attempt
    rw [hattempt, ← hordinal, Option.bind_some] at hstored
    rw [hkey, hstored]
  · rwa [hattempt] at hlive
  · obtain ⟨found, hfound, hfoundId, hfoundOrdinal, -⟩ := hread.pointer
    rw [howner, hlookup]
    simp only [Store.pointed, hfound, Option.bind_eq_bind, Option.bind_some, ← hfoundId,
      ← hfoundOrdinal, hexecution, hpointed, ← hordinal]
    rw [hkey, ← hid, show attempt.executionId = fence.executionId from
      congrArg AttemptAuthority.executionId hauthority]
    rfl
  · rw [howner, hgeneration]
    have hlookup' : generation.ownerLookup = attempt.ownerLookup :=
      store.ownerGenerations.keyed _ _ hgeneration
    have hnumber : generation.generation = fence.ownerGeneration :=
      hsame.trans (congrArg AttemptAuthority.ownerGeneration hauthority)
    rw [← hlookup', ← hnumber]
  · rw [hlast, hkey]

/-- A call under a fence commits only while the fence is current. -/
theorem OwnerFence.current_of_perform {call : Op} (hcall : call.fence? = some fence)
    (hok : Coordination.perform call store = .ok store') : fence.Current store := by
  cases call
  case advance =>
    obtain rfl := Option.some.inj hcall
    obtain ⟨⟨_, _⟩, hadvance, rfl⟩ := map_eq_ok.mp hok
    obtain ⟨hadvance, -⟩ := Store.writing_eq_ok.mp hadvance
    split at hadvance
    · cases hadvance
    · obtain ⟨⟨_, _⟩, hfence, -⟩ := bind_eq_ok.mp hadvance
      exact current_of_requireFence hfence
  case failUnknown | settleNonpublication =>
    obtain rfl := Option.some.inj hcall
    obtain ⟨⟨_, _⟩, hsettle, rfl⟩ := map_eq_ok.mp hok
    obtain ⟨⟨_, _⟩, hfence, -⟩ := bind_eq_ok.mp (Store.writing_eq_ok.mp hsettle).1
    exact current_of_requireFence hfence
  all_goals cases hcall

/-- The attempt of a fence has left it for good: it is settled, a later attempt of its
execution started, or its revision moved past the fence. -/
inductive OwnerFence.Left (fence : OwnerFence) (store : Store) : Prop
  | settled {attempt : AttemptRecord}
      (hstored : store.attempts.get? (fence.executionId, fence.attemptOrdinal) = some attempt)
      (hfinal : attempt.lifecycle.isLive = false)
  | superseded {ordinal : Nat} (hlater : fence.attemptOrdinal < ordinal)
      (hstored : (store.attempts.get? (fence.executionId, ordinal)).isSome = true)
  | advanced {attempt : AttemptRecord}
      (hstored : store.attempts.get? (fence.executionId, fence.attemptOrdinal) = some attempt)
      (hrevision : fence.revision < attempt.revision)

namespace OwnerFence.Left

theorem run (hleft : fence.Left store) {coordinator : Coordinator}
    (hstore : coordinator.store = store) (more : List CoordinatorOp) :
    fence.Left (Library.run Coordinator.perform more coordinator).store := by
  subst hstore
  cases hleft with
  | settled hstored hfinal =>
    obtain ⟨later, hlater, hfollows⟩ := Coordinator.attempts_of_run more coordinator hstored
    refine .settled hlater ?_
    rw [hfollows.settled hfinal, hfinal]
  | superseded hordinal hstored =>
    obtain ⟨attempt, hattempt⟩ := Option.isSome_iff_exists.mp hstored
    obtain ⟨later, hlater, -⟩ := Coordinator.attempts_of_run more coordinator hattempt
    exact .superseded hordinal (by rw [hlater]; rfl)
  | advanced hstored hrevision =>
    obtain ⟨later, hlater, hfollows⟩ := Coordinator.attempts_of_run more coordinator hstored
    exact .advanced hlater (hrevision.trans_le hfollows.revision)

theorem not_current (hleft : fence.Left store) (hnumbered : store.AttemptsNumbered) :
    ¬ fence.Current store := by
  rintro ⟨⟨attempt, hattempt, -, hrevision, hlive⟩, -, -, hlast⟩
  cases hleft with
  | settled hstored hfinal =>
    obtain rfl := Option.mem_unique hstored hattempt
    rw [hfinal] at hlive
    cases hlive
  | superseded hordinal hstored =>
    have hbound := ((hnumbered _ _).mp hstored).2
    rw [hlast, Option.getD_some] at hbound
    omega
  | advanced hstored =>
    obtain rfl := Option.mem_unique hstored hattempt
    omega

end OwnerFence.Left

/-! ### Runs -/

def Applied.value {α : Type} : Applied α → α
  | applied value | alreadyApplied value => value

/-- Some start of the run committed and returned this fence for this request. -/
def Issued (ops : List CoordinatorOp) (request : AttemptStart) (fence : OwnerFence) : Prop :=
  ∃ before after clock committed result, ops = before ++ .base (.start clock request) :: after ∧
    Coordinator.perform (.base (.start clock request)) (Coordinator.reached before) =
      .ok committed ∧
    (Coordinator.reached before).store.start clock request = .ok (committed.store, result) ∧
      result.value.fence = fence

theorem activate_attempts (hok : request.activate clock snapshot store = .ok store') :
    ∃ attempt, store'.attempts.get? (request.executionId, request.attemptOrdinal) = some attempt ∧
      attempt.revision = 1 ∧ attempt.authority = ⟨request.executionId, request.attemptOrdinal,
        snapshot.execution.ownerLookup, request.ownerGeneration, request.digest⟩ := by
  simp only [AttemptStart.activate, bind_eq_ok] at hok
  obtain ⟨s₁, hattempt, s₂, hexecution, hpointer⟩ := hok
  have hinserted := (Store.attemptInserted_of_insertAttempt hattempt).inserted
  simp only [Store.updateExecution, do_eq_ok] at hexecution
  obtain ⟨-, -, _, -, rfl⟩ := hexecution
  simp only [Store.updateCurrentExecution, do_eq_ok] at hpointer
  obtain ⟨_, -, rfl⟩ := hpointer
  exact ⟨_, (hinserted.get?_eq _).trans (if_pos rfl), rfl, rfl⟩

theorem resumeRetry_attempts (hok : AttemptStart.resumeRetry clock snapshot store = .ok store') :
    store'.attempts = store.attempts := by
  simp only [AttemptStart.resumeRetry, bind_eq_ok] at hok
  obtain ⟨s₁, hobligations, hok⟩ := hok
  have h₁ : s₁.attempts = store.attempts := by
    refine foldlM_invariant (fun later : Store => later.attempts = store.attempts) ?_ rfl
      hobligations
    intro obligation _ s t hs hstep
    simp only [Store.updateObligation, bind_eq_ok, Store.accepted_eq_ok, Store.afterWrite_eq_ok]
      at hstep
    obtain ⟨_, -, _, -, -, rfl⟩ := hstep
    exact hs
  split at hok
  · refine foldlM_invariant (fun later : Store => later.attempts = store.attempts) ?_ h₁ hok
    intro assignment _ s t hs hstep
    simp only [Store.updateWakeClaim, do_eq_ok] at hstep
    obtain ⟨_, -, _, -, _, -, rfl⟩ := hstep
    exact hs
  · cases hok
    exact h₁

/-- A start that returns has its attempt stored, under the fence it returns. -/
theorem stored_of_start (hok : store.start clock request = .ok (store', result)) :
    result.value.fence.authority = (request.fence 1).authority ∧
      ∃ attempt, store'.attempts.get? (request.executionId, request.attemptOrdinal) =
        some attempt ∧ attempt.authority = (request.fence 1).authority ∧
          attempt.revision = result.value.fence.revision := by
  obtain ⟨hok, -⟩ := Store.writing_eq_ok.mp hok
  obtain ⟨snapshot, hget, hok⟩ := bind_eq_ok.mp hok
  obtain ⟨hread, -⟩ := Store.get_eq_ok.mp hget
  split at hok
  next old hold =>
    simp only [AttemptStart.replayedFence, do_eq_ok, exists_const] at hok
    obtain ⟨_, ⟨⟨hordinal, hlookup, hgeneration, -⟩, rfl⟩, rfl, rfl⟩ := hok
    have hmatches := List.find?_some hold
    rw [Bool.and_eq_true, beq_iff_eq, beq_iff_eq] at hmatches
    refine ⟨rfl, old, ?_, ?_, rfl⟩
    · rw [← hmatches.1, ← hordinal]
      exact Table.mem_values.mp (List.mem_of_find?_eq_some hold)
    · rw [AttemptRecord.authority, hmatches.1, hordinal, hlookup, hgeneration, hmatches.2]
      rfl
  · simp only [Store.startNew, AttemptStart.validate, Store.participant, do_eq_ok,
    exists_const] at hok
    obtain ⟨-, _, ⟨_, -, generation, hgeneration, _, -, rfl⟩, ⟨⟨-, hlookup, -⟩, -⟩, s₁, hactivate,
      s₂, hresume, _, -, rfl, rfl⟩ := hok
    obtain ⟨attempt, hattempt, hrevision, hauthority⟩ := activate_attempts hactivate
    have howner : snapshot.execution.ownerLookup = request.ownerLookup :=
      (store.ownerGenerations.keyed _ _ hgeneration).symm.trans hlookup
    refine ⟨rfl, attempt, ?_, ?_, hrevision⟩
    · rw [resumeRetry_attempts hresume, hattempt]
    · rw [hauthority, howner]
      rfl

/-- A stored token is found again, and its start writes nothing. -/
theorem start_of_stored {attempt : AttemptRecord}
    (hstored : store.attempts.get? (request.executionId, request.attemptOrdinal) = some attempt)
    (hauthority : attempt.authority = (request.fence 1).authority)
    (hok : store.start clock request = .ok (store', result)) : store' = store := by
  obtain ⟨hok, -⟩ := Store.writing_eq_ok.mp hok
  obtain ⟨snapshot, -, hok⟩ := bind_eq_ok.mp hok
  split at hok
  · simp only [do_eq_ok] at hok
    obtain ⟨_, -, rfl, -⟩ := hok
    rfl
  next hnone =>
    have hmissing := List.find?_eq_none.mp hnone attempt (Table.mem_values_of_get? hstored)
    have hid : attempt.executionId = request.executionId :=
      congrArg AttemptAuthority.executionId hauthority
    have hdigest : attempt.ownerTokenDigest = request.digest :=
      congrArg AttemptAuthority.tokenDigest hauthority
    simp [hid, hdigest] at hmissing

/-- An issued fence names a stored attempt, whose revision it does not exceed. -/
theorem stored_of_issued (hissued : Issued ops request fence) :
    fence.authority = (request.fence 1).authority ∧
      ∃ attempt, (Coordinator.reached ops).store.attempts.get?
        (request.executionId, request.attemptOrdinal) = some attempt ∧
          attempt.authority = (request.fence 1).authority ∧ fence.revision ≤ attempt.revision := by
  obtain ⟨before, after, clock, committed, result, rfl, hperform, hstart, rfl⟩ := hissued
  obtain ⟨hfence, attempt, hstored, hauthority, hrevision⟩ := stored_of_start hstart
  obtain ⟨later, hlater, hfollows⟩ := Coordinator.attempts_of_run after committed hstored
  refine ⟨hfence, later, ?_, hfollows.authority.trans hauthority, hrevision ▸ hfollows.revision⟩
  rw [Coordinator.reached, run_append, run_cons]
  rw [show commit (Coordinator.perform (.base (.start clock request)))
    (run Coordinator.perform before .empty) = committed from commit_of_ok hperform]
  exact hlater

/-- A refused call leaves the coordinator as it was. -/
theorem reached_of_refused {op : CoordinatorOp}
    (hrefused : ∀ committed, Coordinator.perform op (Coordinator.reached ops) ≠ .ok committed) :
    Coordinator.reached (ops ++ [op]) = Coordinator.reached ops := by
  rw [Coordinator.reached, run_append, run_cons, run_nil]
  rcases commit_cases (Coordinator.perform op) (run Coordinator.perform ops .empty) with
    hok | hsame
  · exact absurd hok (hrefused _)
  · exact hsame

theorem base_of_perform {op : Op} {coordinator committed : Coordinator}
    (hok : Coordinator.perform (.base op) coordinator = .ok committed) :
    Coordination.perform op coordinator.store = .ok committed.store := by
  simp only [Coordinator.perform, Coordinator.performBase, do_eq_ok] at hok
  obtain ⟨store, hop, _, -, rfl⟩ := hok
  exact hop

/-- Once its attempt has left a fence, a call under it changes nothing. -/
theorem OwnerFence.Left.unchanged (hleft : fence.Left (Coordinator.reached ops).store) {call : Op}
    (hcall : call.fence? = some fence) :
    Coordinator.reached (ops ++ [.base call]) = Coordinator.reached ops := by
  refine reached_of_refused fun committed hok => ?_
  exact hleft.not_current (Coordinator.attemptsNumbered_of_reached ops)
    (OwnerFence.current_of_perform hcall (base_of_perform hok))

/-- An advance moves the revision of its attempt past every fence issued before. -/
theorem left_of_advance {holder : OwnerFence} {phase : AttemptKind} {revision : Nat}
    {done dead progress : Bool} {reason : ReasonCode} {result : StartResult}
    {attempt : AttemptRecord} (hsame : (holder.executionId, holder.attemptOrdinal) =
      (fence.executionId, fence.attemptOrdinal))
    (hstored : store.attempts.get? (fence.executionId, fence.attemptOrdinal) = some attempt)
    (hbound : fence.revision ≤ attempt.revision)
    (hok : store.advance clock holder phase revision done dead progress reason =
      .ok (store', result)) : fence.Left store' := by
  obtain ⟨hok, -⟩ := Store.writing_eq_ok.mp hok
  split at hok
  · cases hok
  · simp only [do_eq_ok] at hok
    obtain ⟨⟨snapshot, current⟩, hfence, _, -, _, hadvance, _, -, _, -, rfl, -⟩ := hok
    obtain ⟨hget, -, hcurrent, hauthority⟩ := Store.requireFence_eq_ok hfence
    have hkey : (current.executionId, current.attemptOrdinal) =
        (fence.executionId, fence.attemptOrdinal) := by
      rw [← hsame]
      exact Prod.ext (congrArg AttemptAuthority.executionId hauthority)
        (congrArg AttemptAuthority.ordinal hauthority)
    simp only [Store.advanceAttempt, Store.updateAttempt, do_eq_ok, Store.accepted_eq_ok,
      hkey] at hadvance
    obtain ⟨_, -, table, hupdate, rfl⟩ := hadvance
    cases Table.updated_of_update? hupdate with
    | unmatched _ hnone => cases hnone _ hstored
    | changed old hold _ hadmits _ hget =>
      obtain rfl := Option.mem_unique hold hstored
      refine .advanced ((hget _).trans (if_pos rfl)) ?_
      rw [hadmits.2.2.1]
      exact Nat.lt_succ_of_le hbound

/-- A fence some start returned acts only while it is current. After its attempt was
settled, superseded or advanced, no call under it changes anything, whatever happens in
between; and the prepared start itself may be replayed at any time without a change. -/
theorem stale_fences_change_nothing (ops : List CoordinatorOp) (request : AttemptStart)
    (fence : OwnerFence) (hissued : Issued ops request fence) :
    (∀ call : Op, call.fence? = some fence →
      Coordinator.reached (ops ++ [.base call]) = Coordinator.reached ops ∨
        fence.Current (Coordinator.reached ops).store) ∧
    (∀ attempt, (Coordinator.reached ops).store.attempts.get?
        (fence.executionId, fence.attemptOrdinal) = some attempt →
      attempt.lifecycle.isLive = false →
      ∀ (more : List CoordinatorOp) (call : Op), call.fence? = some fence →
        Coordinator.reached (ops ++ more ++ [.base call]) = Coordinator.reached (ops ++ more)) ∧
    (∀ ordinal, fence.attemptOrdinal < ordinal →
      ((Coordinator.reached ops).store.attempts.get? (fence.executionId, ordinal)).isSome = true →
      ∀ (more : List CoordinatorOp) (call : Op), call.fence? = some fence →
        Coordinator.reached (ops ++ more ++ [.base call]) = Coordinator.reached (ops ++ more)) ∧
    (∀ clock holder phase revision done dead progress reason committed,
      (holder.executionId, holder.attemptOrdinal) = (fence.executionId, fence.attemptOrdinal) →
      Coordinator.perform (.base (.advance clock holder phase revision done dead progress reason))
          (Coordinator.reached ops) = .ok committed →
      ∀ (more : List CoordinatorOp) (call : Op), call.fence? = some fence →
        Coordinator.reached (ops ++ .base
            (.advance clock holder phase revision done dead progress reason) :: more ++
              [.base call]) =
          Coordinator.reached (ops ++ .base
            (.advance clock holder phase revision done dead progress reason) :: more)) ∧
    ∀ clock, Coordinator.reached (ops ++ [.base (.start clock request)]) =
      Coordinator.reached ops := by
  obtain ⟨hfence, attempt, hstored, hauthority, hbound⟩ := stored_of_issued hissued
  have hid : fence.executionId = request.executionId := congrArg AttemptAuthority.executionId hfence
  have hordinal : fence.attemptOrdinal = request.attemptOrdinal :=
    congrArg AttemptAuthority.ordinal hfence
  have hafter : ∀ more, fence.Left (Coordinator.reached ops).store →
      fence.Left (Coordinator.reached (ops ++ more)).store := by
    intro more hleft
    rw [Coordinator.reached, run_append]
    exact hleft.run rfl more
  refine ⟨?_, ?_, ?_, ?_, ?_⟩
  · intro call hcall
    by_cases hcurrent : fence.Current (Coordinator.reached ops).store
    · exact .inr hcurrent
    · refine .inl (reached_of_refused fun committed hok => hcurrent ?_)
      exact OwnerFence.current_of_perform hcall (base_of_perform hok)
  · intro found hfound hfinal more call hcall
    exact (hafter more (.settled hfound hfinal)).unchanged hcall
  · intro ordinal hlater hsome more call hcall
    exact (hafter more (.superseded hlater hsome)).unchanged hcall
  · intro clock holder phase revision done dead progress reason committed hsame hok more call hcall
    have hadvance := base_of_perform hok
    obtain ⟨⟨_, result⟩, hadvance, hstore⟩ := map_eq_ok.mp hadvance
    rw [← hid, ← hordinal] at hstored
    have hleft : fence.Left committed.store := hstore ▸ left_of_advance hsame hstored hbound hadvance
    refine OwnerFence.Left.unchanged ?_ hcall
    rw [Coordinator.reached, run_append, run_cons, show commit (Coordinator.perform (.base
        (.advance clock holder phase revision done dead progress reason)))
        (run Coordinator.perform ops .empty) = committed from commit_of_ok hok]
    exact hleft.run rfl more
  · intro clock
    rw [Coordinator.reached, run_append, run_cons, run_nil]
    rcases commit_cases (Coordinator.perform (.base (.start clock request)))
        (run Coordinator.perform ops .empty) with hok | hsame
    · simp only [Coordinator.perform, Coordinator.performBase, do_eq_ok] at hok
      obtain ⟨store, hop, _, -, hcommit⟩ := hok
      obtain ⟨⟨_, result⟩, hstart, rfl⟩ := map_eq_ok.mp hop
      rw [← hcommit, start_of_stored hstored hauthority hstart]
      rfl
    · exact hsame

theorem issued_of_start {before : List CoordinatorOp}
    (hcommits : (Coordinator.perform (.base (.start clock request))
      (Coordinator.reached before)).toOption.isSome = true)
    (hreturns : ((Coordinator.reached before).store.start clock request).toOption.map
      (fun written => written.2.value.fence) = some fence) :
    Issued (before ++ [.base (.start clock request)]) request fence := by
  obtain ⟨committed, hcommitted⟩ := Option.isSome_iff_exists.mp hcommits
  obtain ⟨⟨store', result⟩, hresult, hfence⟩ := Option.map_eq_some_iff.mp hreturns
  have hperform := toOption_eq_some.mp hcommitted
  have hstart := toOption_eq_some.mp hresult
  obtain ⟨⟨_, _⟩, hstart', hstore⟩ := map_eq_ok.mp (base_of_perform hperform)
  rw [hstart, Except.ok.injEq, Prod.mk.injEq] at hstart'
  refine ⟨before, [], clock, committed, result, rfl, hperform, ?_, hfence⟩
  rw [hstart, ← hstore, hstart'.1]

/-- `sampleRun` up to its start, and the start. -/
def samplePending : List CoordinatorOp :=
  [.base (.register "a" true), .base (.accept sampleClaim),
    .base (.create (fun _ => 0) "x" .wire "a" 2 [sampleSource]),
    .base (.markPending (fun _ => 0) "x" 1)]

def sampleStart : AttemptStart := ⟨"x", 1, "a", 1, "t", 2, 0⟩

theorem stale_fences_change_nothing_sample :
    Issued (samplePending ++ [.base (.start (fun _ => 0) sampleStart)]) sampleStart
      ⟨"x", 1, "a", 1, 1, "t"⟩ ∧
    Coordinator.reached (samplePending ++ [.base (.start (fun _ => 0) sampleStart)] ++
        [.base (.start (fun _ => 9) sampleStart)]) =
      Coordinator.reached (samplePending ++ [.base (.start (fun _ => 0) sampleStart)]) := by
  have hissued : Issued (samplePending ++ [.base (.start (fun _ => 0) sampleStart)]) sampleStart
      ⟨"x", 1, "a", 1, 1, "t"⟩ := issued_of_start (by decide +kernel) (by decide +kernel)
  exact ⟨hissued, (stale_fences_change_nothing _ _ _ hissued).2.2.2.2 fun _ => 9⟩

end AgentComms.Coordination
