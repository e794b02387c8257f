import AgentComms.Coordination.Lifecycle

/-!
# What a handoff does to the claims

The exact effect on the claims of one preengagement step, of a harness attempt and of a
cohort's acceptance: which claims change, and in which state they end.
-/

namespace AgentComms.Coordination

open Library Relation

variable {before after : WakeAssignment}

/-! ### One preengagement step -/

namespace AssignmentState

variable {state after : AssignmentState} {disposition : AssignmentKind}

/-- An accepted step is declared and keeps the claim unbound under its policy. -/
theorem preengagement_eq_ok (hok : state.preengagement disposition = .ok after) :
    state.executionId = none ∧ disposition ∈ state.kind.successors ∧ after.kind = disposition ∧
      after.executionId = none ∧ after.mode = state.mode := by
  have hunbound := Store.executionId_of_preengagement hok
  simp only [preengagement, do_eq_ok, exists_const] at hok
  obtain ⟨⟨hstate, hsuccessor⟩, built, hbuild, hmode, rfl⟩ := hok
  refine ⟨hstate, hsuccessor, ?_, hunbound, hmode⟩
  unfold AssignmentKind.buildPreengagement at hbuild
  split at hbuild
  case h_1 | h_2 | h_3 => cases hbuild
  all_goals exact AssignmentKind.kind_of_build hbuild

theorem initialState_of_kind {mode : WakePolicy} (hmode : state.mode = mode)
    (hkind : state.kind = mode.initialState.kind) : state = mode.initialState := by
  subst hmode
  cases state with
  | passive | triagePending | fullPending => rfl
  | ignored => cases hkind
  | engaged decision | completed decision =>
    cases hwake : decision.wake <;> simp [mode, Engagement.mode, hwake, kind,
      WakePolicy.initialState] at hkind
  | deferred decision | failed decision =>
    cases hmode : decision.mode with
    | passive => simp [mode, hmode, kind, WakePolicy.initialState] at hkind
    | active wake => cases wake <;> simp [mode, hmode, kind, WakePolicy.initialState] at hkind
  | delivered wake => cases wake <;> simp [mode, kind, WakePolicy.initialState] at hkind

end AssignmentState

namespace Store

variable {store store' : Store} {assignmentId : AssignmentId}

structure Stepped (store : Store) (assignmentId : AssignmentId) (disposition : AssignmentKind)
    (before after : WakeAssignment) (store' : Store) : Prop where
  stored : store.wakeClaims.get? assignmentId = some before
  unbound : before.lifecycle.executionId = none
  declared : disposition ∈ before.lifecycle.kind.successors
  kind : after.lifecycle.kind = disposition
  stillUnbound : after.lifecycle.executionId = none
  mode : after.lifecycle.mode = before.lifecycle.mode
  admits : Record.Admits before after
  claims : ∀ k, store'.wakeClaims.get? k =
    if k = assignmentId then some after else store.wakeClaims.get? k
  evolve : ClaimsEvolve store store'
  frame : store' = { store with wakeClaims := store'.wakeClaims }

theorem assignment_eq_ok {claim : WakeAssignment} :
    store.assignment assignmentId = .ok claim ↔
      store.wakeClaims.get? assignmentId = some claim := orRefuse_eq_ok

theorem transitionIn_stepped {clock : Clock} {disposition : AssignmentKind} {revision : Nat}
    (hok : store.transitionIn clock assignmentId disposition revision = .ok (store', after)) :
    ∃ before, before.revision = revision ∧
      Stepped store assignmentId disposition before after store' := by
  have hevolve := ClaimsEvolve.of_writes (transitionIn_writes hok)
  simp only [transitionIn, do_eq_ok, exists_const, assignment_eq_ok] at hok
  obtain ⟨before, hstored, hrevision, lifecycle, hlifecycle, _, hupdate, rfl, rfl⟩ := hok
  obtain ⟨hunbound, hdeclared, hkind, hstill, hmode⟩ :=
    AssignmentState.preengagement_eq_ok hlifecycle
  simp only [updateWakeClaim, do_eq_ok, accepted_eq_ok] at hupdate
  obtain ⟨_, -, table, htable, rfl⟩ := hupdate
  refine ⟨before, hrevision, ?_⟩
  cases Table.updated_of_update? htable with
  | unmatched _ hnone =>
    have hfalse := hnone before hstored
    rw [beq_eq_false_iff_ne] at hfalse
    exact absurd hrevision hfalse
  | changed old hold _ hadmits _ hget =>
    obtain rfl := Option.mem_unique hold hstored
    exact ⟨hstored, hunbound, hdeclared, hkind, hstill, hmode, hadmits, hget, hevolve, rfl⟩

namespace Stepped

variable {assignmentId : AssignmentId} {disposition : AssignmentKind}
  {before after : WakeAssignment}

variable (hstepped : Stepped store assignmentId disposition before after store')
include hstepped

theorem get?_self : store'.wakeClaims.get? assignmentId = some after := by
  rw [hstepped.claims, if_pos rfl]

theorem get?_other {k : AssignmentId} (hk : k ≠ assignmentId) :
    store'.wakeClaims.get? k = store.wakeClaims.get? k := by
  rw [hstepped.claims, if_neg hk]

theorem revision : after.revision = before.revision + 1 := hstepped.admits.2.2.1

theorem recipient :
    after.recipientLookup = before.recipientLookup ∧ after.source = before.source := by
  obtain ⟨-, -, hlookup, hseq, hmessage, -⟩ := hstepped.admits.1
  exact ⟨hlookup, by rw [WakeAssignment.source, WakeAssignment.source, hseq, hmessage]⟩

end Stepped

/-! ### A harness attempt -/

theorem mem_claimsAt {lookup : ThreadLookup} {wireSeq : Nat} {claim : WakeAssignment} :
    claim ∈ store.claimsAt lookup wireSeq ↔
      store.wakeClaims.get? claim.assignmentId = some claim ∧
        claim.recipientLookup = lookup ∧ claim.wireSeq = wireSeq := by
  rw [claimsAt, List.mem_filter, Table.mem_values, Bool.and_eq_true, beq_iff_eq, beq_iff_eq]
  rfl

/-- A recipient has one claim on a message at most. -/
theorem claimsAt_cases (hdistinct : DistinctClaims store.wakeClaims) (lookup : ThreadLookup)
    (wireSeq : Nat) : store.claimsAt lookup wireSeq = [] ∨
      ∃ claim, store.claimsAt lookup wireSeq = [claim] := by
  have hnodup : (store.claimsAt lookup wireSeq).Nodup := store.wakeClaims.values_nodup.filter _
  match hclaims : store.claimsAt lookup wireSeq with
  | [] => exact .inl rfl
  | [claim] => exact .inr ⟨claim, rfl⟩
  | first :: second :: rest =>
    have hfirst : first ∈ store.claimsAt lookup wireSeq := by simp [hclaims]
    have hsecond : second ∈ store.claimsAt lookup wireSeq := by simp [hclaims]
    obtain ⟨hget, hlookup, hseq⟩ := mem_claimsAt.mp hfirst
    obtain ⟨hget', hlookup', hseq'⟩ := mem_claimsAt.mp hsecond
    have hkey := hdistinct hget hget' (hlookup.trans hlookup'.symm) (hseq.trans hseq'.symm)
    simp [hclaims, Table.eq_of_key hget hget' hkey] at hnodup

end Store

/-- Where a harness attempt left a claim: it is out of the native queue, and a claim that
was neither pending nor deferred stays as it was. -/
inductive HandedOff (before after : WakeAssignment) : Prop
  | kept (hsame : after = before) (hout : before.lifecycle.isPending = false)
  | moved (hrevision : before.revision < after.revision)
      (hkind : after.lifecycle.kind = .deferred ∨ after.lifecycle.kind = .delivered)
      (hopen : before.lifecycle.isPending = true ∨ before.lifecycle.kind = .deferred)
      (hunbound : after.lifecycle.executionId = none)

theorem HandedOff.not_pending (hoff : HandedOff before after) :
    after.lifecycle.isPending = false := by
  cases hoff with
  | kept hsame => rwa [hsame]
  | moved _ hkind =>
    rcases hkind with hkind | hkind <;> simp [AssignmentState.isPending, hkind]

theorem HandedOff.unbound (hoff : HandedOff before after)
    (hunbound : before.lifecycle.executionId = none) : after.lifecycle.executionId = none := by
  cases hoff with
  | kept hsame => rwa [hsame]
  | moved _ _ _ hafter => exact hafter

/-- A second attempt leaves the claim out of the queue as well. -/
theorem HandedOff.trans {middle : WakeAssignment} (hfirst : HandedOff before middle)
    (hsecond : HandedOff middle after) : HandedOff before after := by
  cases hsecond with
  | kept hsame => rwa [hsame]
  | moved hrevision hkind hopen hunbound =>
    cases hfirst with
    | kept hsame => exact .moved (hsame ▸ hrevision) hkind (hsame ▸ hopen) hunbound
    | moved hrevision' _ hopen' =>
      exact .moved (hrevision'.trans hrevision) hkind hopen' hunbound

/-- The claims after one attempt: only the recipient's claim on the message changed. -/
structure HarnessEffect (attempt : HarnessDelivery) (store store' : Store) : Prop where
  moved : ∀ {k claim}, store.wakeClaims.get? k = some claim →
    claim.recipientLookup = attempt.recipientLookup → claim.wireSeq = attempt.seq →
      ∃ later, store'.wakeClaims.get? k = some later ∧ HandedOff claim later
  others : ∀ {k claim}, store.wakeClaims.get? k = some claim →
    ¬ (claim.recipientLookup = attempt.recipientLookup ∧ claim.wireSeq = attempt.seq) →
      store'.wakeClaims.get? k = some claim
  absent : ∀ {k}, store.wakeClaims.get? k = none → store'.wakeClaims.get? k = none
  evolve : ClaimsEvolve store store'
  frame : store' = { store with wakeClaims := store'.wakeClaims }

/-- Where a claim after an attempt came from. -/
theorem HarnessEffect.origin {attempt : HarnessDelivery} {store store' : Store}
    (heffect : HarnessEffect attempt store store') {k : AssignmentId}
    {later : WakeAssignment} (hlater : store'.wakeClaims.get? k = some later) :
    ∃ claim, store.wakeClaims.get? k = some claim ∧
      (later = claim ∧ ¬ (claim.recipientLookup = attempt.recipientLookup ∧
          claim.wireSeq = attempt.seq) ∨
        claim.recipientLookup = attempt.recipientLookup ∧ claim.wireSeq = attempt.seq ∧
          HandedOff claim later) := by
  cases hclaim : store.wakeClaims.get? k with
  | none =>
    rw [heffect.absent hclaim] at hlater
    cases hlater
  | some claim =>
    refine ⟨claim, rfl, ?_⟩
    by_cases hmatches : claim.recipientLookup = attempt.recipientLookup ∧
        claim.wireSeq = attempt.seq
    · obtain ⟨found, hfound, hoff⟩ := heffect.moved hclaim hmatches.1 hmatches.2
      rw [hlater, Option.some.injEq] at hfound
      exact .inr ⟨hmatches.1, hmatches.2, hfound ▸ hoff⟩
    · have hsame := heffect.others hclaim hmatches
      rw [hlater, Option.some.injEq] at hsame
      exact .inl ⟨hsame, hmatches⟩

namespace Store

variable {store store' : Store} {readings : Readings} {disposition : AssignmentKind}
  {assignmentId : AssignmentId}

/-- `settle_harness_inputs` walks the one claim there is. -/
theorem settleHarnessInputs_cases (hdistinct : DistinctClaims store.wakeClaims)
    {lookup : ThreadLookup} {reference : MessageReference}
    {steps : AssignmentState → List AssignmentKind}
    (hok : store.settleHarnessInputs readings lookup reference steps = .ok store') :
    (store.claimsAt lookup reference.seq = [] ∧ store' = store) ∨
      ∃ claim, store.claimsAt lookup reference.seq = [claim] ∧
        store.walk readings claim (steps claim.lifecycle) = .ok store' := by
  rcases claimsAt_cases hdistinct lookup reference.seq with hnone | ⟨claim, hclaim⟩
  · rw [settleHarnessInputs, hnone, List.foldlM_nil, pure_eq_ok] at hok
    exact .inl ⟨hnone, hok.symm⟩
  · rw [settleHarnessInputs, hclaim] at hok
    simp only [List.foldlM_cons, List.foldlM_nil, do_eq_ok] at hok
    obtain ⟨_, ⟨_, -, hwalk⟩, rfl⟩ := hok
    exact .inr ⟨claim, hclaim, hwalk⟩

def SameBut (assignmentId : AssignmentId) (store store' : Store) : Prop :=
  (∀ k, k ≠ assignmentId → store'.wakeClaims.get? k = store.wakeClaims.get? k) ∧
    store' = { store with wakeClaims := store'.wakeClaims }

theorem SameBut.refl (assignmentId : AssignmentId) (store : Store) :
    SameBut assignmentId store store := ⟨fun _ _ => rfl, rfl⟩

theorem SameBut.trans {middle : Store} (hfirst : SameBut assignmentId store middle)
    (hsecond : SameBut assignmentId middle store') : SameBut assignmentId store store' := by
  refine ⟨fun k hk => (hsecond.1 k hk).trans (hfirst.1 k hk), ?_⟩
  rw [hsecond.2, hfirst.2]

theorem Stepped.sameBut (hstepped : Stepped store assignmentId disposition before after store') :
    SameBut assignmentId store store' := ⟨fun _ hk => hstepped.get?_other hk, hstepped.frame⟩

end Store

namespace AssignmentState

/-- The steps of one phase: none for a claim out of the native queue, or one that takes it
there from a claim that was pending or deferred. -/
def PhaseSteps (state : AssignmentState) (steps : List AssignmentKind) : Prop :=
  steps = [] ∧ state.isPending = false ∨
    ∃ kind, steps = [kind] ∧ (kind = .deferred ∨ kind = .delivered) ∧
      (state.isPending = true ∨ state.kind = .deferred)

theorem phaseSteps_harnessHandoff (state : AssignmentState) :
    state.PhaseSteps state.harnessHandoff := by
  cases state <;> simp [PhaseSteps, isPending, kind, harnessHandoff]

theorem phaseSteps_claimSteps {state : AssignmentState} (hpending : state.isPending = false)
    (monitor : HarnessMonitor) : state.PhaseSteps (monitor.claimSteps state) := by
  cases monitor
  case observed =>
    cases state <;> simp_all [PhaseSteps, isPending, kind, HarnessMonitor.claimSteps,
      harnessDelivery]
  all_goals exact .inl ⟨rfl, hpending⟩

end AssignmentState

namespace Coordinator

variable {store store' : Store} {readings : Readings} {attempt : HarnessDelivery}
  {claim : WakeAssignment} {row : HarnessDelivery} {initial : Delivered}
  {identify : Identify} {expected : List WakeAssignment}

/-- A phase on the recipient's claim leaves it out of the native queue. -/
theorem handedOff_of_walk {steps : List AssignmentKind}
    (hget : store.wakeClaims.get? claim.assignmentId = some claim)
    (hsteps : claim.lifecycle.PhaseSteps steps)
    (hok : store.walk readings claim steps = .ok store') :
    Store.SameBut claim.assignmentId store store' ∧
      ∃ later, store'.wakeClaims.get? claim.assignmentId = some later ∧
        later.recipientLookup = claim.recipientLookup ∧ later.wireSeq = claim.wireSeq ∧
          HandedOff claim later := by
  rcases hsteps with ⟨rfl, hpending⟩ | ⟨kind, rfl, hkind, hopen⟩
  · cases hok
    exact ⟨.refl _ _, claim, hget, rfl, rfl, .kept rfl hpending⟩
  · simp only [Store.walk, do_eq_ok, Prod.exists] at hok
    obtain ⟨_, after, hstep, rfl⟩ := hok
    obtain ⟨before, -, hstepped⟩ := Store.transitionIn_stepped hstep
    obtain rfl := Option.mem_unique hstepped.stored hget
    obtain ⟨-, -, hlookup, hseq, -⟩ := hstepped.admits.1
    refine ⟨hstepped.sameBut, after, hstepped.get?_self, hlookup, hseq, .moved ?_
      (hstepped.kind ▸ hkind) hopen hstepped.stillUnbound⟩
    rw [hstepped.revision]
    exact Nat.lt_succ_self _

theorem settleClaims_effect (hdistinct : DistinctClaims store.wakeClaims)
    (hok : settleClaims readings store attempt = .ok store') :
    HarnessEffect attempt store store' := by
  simp only [settleClaims, bind_eq_ok] at hok
  obtain ⟨middle, hhandoff, hproof⟩ := hok
  have hmiddle : DistinctClaims middle.wakeClaims :=
    (ClaimsEvolve.of_writes (Store.settleHarnessInputs_writes hhandoff)).distinct hdistinct
  have hevolve := ClaimsEvolve.of_writes ((Store.settleHarnessInputs_writes hhandoff).trans
    (Store.settleHarnessInputs_writes hproof))
  rcases Store.settleHarnessInputs_cases hdistinct hhandoff with ⟨hnone, rfl⟩ | ⟨claim, hclaim, hwalk⟩
  · -- no claim on this message
    rcases Store.settleHarnessInputs_cases hmiddle hproof with ⟨-, rfl⟩ | ⟨claim, hclaim, -⟩
    · refine ⟨fun hget hlookup hseq => ?_, fun hget _ => hget, id, hevolve, rfl⟩
      have hmem := Store.mem_claimsAt.mpr ⟨store'.wakeClaims.keyed _ _ hget ▸ hget, hlookup, hseq⟩
      rw [show attempt.seq = attempt.reference.seq from rfl, hnone] at hmem
      cases hmem
    · rw [hnone] at hclaim
      cases hclaim
  · obtain ⟨hget, hlookup, hseq⟩ := Store.mem_claimsAt.mp (hclaim ▸ List.mem_singleton_self claim)
    obtain ⟨hsame, later, hlater, hlookup', hseq', hoff⟩ :=
      handedOff_of_walk hget (AssignmentState.phaseSteps_harnessHandoff _) hwalk
    have hkey : later.assignmentId = claim.assignmentId := middle.wakeClaims.keyed _ _ hlater
    have hmem : later ∈ middle.claimsAt attempt.recipientLookup attempt.reference.seq :=
      Store.mem_claimsAt.mpr ⟨hkey ▸ hlater, hlookup'.trans hlookup, hseq'.trans hseq⟩
    rcases Store.settleHarnessInputs_cases hmiddle hproof with ⟨hnone, -⟩ | ⟨other, hother, hwalk'⟩
    · rw [hnone] at hmem
      cases hmem
    · rw [hother, List.mem_singleton] at hmem
      subst hmem
      obtain ⟨hsame', last, hlast, -, -, hoff'⟩ := handedOff_of_walk (hkey ▸ hlater)
        (AssignmentState.phaseSteps_claimSteps hoff.not_pending _) hwalk'
      rw [hkey] at hsame' hlast
      have hall := hsame.trans hsame'
      have hclaimed : ∀ {k other}, store.wakeClaims.get? k = some other →
          other.recipientLookup = attempt.recipientLookup → other.wireSeq = attempt.seq →
            k = claim.assignmentId := fun hget' hlookup' hseq' =>
        hdistinct hget' hget (hlookup'.trans hlookup.symm) (hseq'.trans hseq.symm)
      refine ⟨?_, ?_, ?_, hevolve, hall.2⟩
      · intro k found hfound hlookup'' hseq''
        obtain rfl := hclaimed hfound hlookup'' hseq''
        obtain rfl := Option.mem_unique hfound hget
        exact ⟨last, hlast, hoff.trans hoff'⟩
      · intro k found hfound hnot
        rw [hall.1 k, hfound]
        rintro rfl
        obtain rfl := Option.mem_unique hfound hget
        exact hnot ⟨hlookup, hseq⟩
      · intro k habsent
        rw [hall.1 k, habsent]
        rintro rfl
        rw [hget] at habsent
        cases habsent

/-! ### Pending work -/

variable {coordinator : Coordinator}

theorem mem_sealedPending {lookup : ThreadLookup}
    : claim ∈ coordinator.sealedPending lookup ↔
      coordinator.store.wakeClaims.get? claim.assignmentId = some claim ∧
        claim.recipientLookup = lookup ∧ claim.lifecycle.selectedPending = true ∧
          coordinator.sealedMember claim = true := by
  rw [sealedPending, Table.mem_selectBy, Bool.and_eq_true, Bool.and_eq_true, beq_iff_eq, and_assoc]
  rfl

theorem sealedPending_ordered
    (hdistinct : DistinctClaims coordinator.store.wakeClaims) (lookup : ThreadLookup) :
    (coordinator.sealedPending lookup).Pairwise (·.wireSeq < ·.wireSeq) := by
  have hnodup := coordinator.store.wakeClaims.selectBy_nodup
    (fun claim => toLex (claim.wireSeq, claim.assignmentId)) fun claim =>
      claim.recipientLookup == lookup && claim.lifecycle.selectedPending &&
        coordinator.sealedMember claim
  have hsorted : (coordinator.sealedPending lookup).Pairwise fun claim other =>
      toLex (claim.wireSeq, claim.assignmentId) ≤ toLex (other.wireSeq, other.assignmentId) :=
    List.pairwise_insertionSort _ _
  refine (hsorted.and hnodup).imp_of_mem fun {claim other} hclaim hother hle => ?_
  obtain ⟨hget, hlookup, -⟩ := mem_sealedPending.mp hclaim
  obtain ⟨hget', hlookup', -⟩ := mem_sealedPending.mp hother
  have hseq : claim.wireSeq ≤ other.wireSeq := by
    rcases Prod.Lex.toLex_le_toLex.mp hle.1 with hlt | ⟨heq, -⟩
    · exact Nat.le_of_lt hlt
    · exact Nat.le_of_eq heq
  refine Nat.lt_of_le_of_ne hseq fun hsame => hle.2 ?_
  exact Table.eq_of_key hget hget' (hdistinct hget hget' (hlookup.trans hlookup'.symm) hsame)

/-- The pages together are every acknowledged pending claim after the sequence. -/
theorem mem_pendingSealedAssignments
    (hdistinct : DistinctClaims coordinator.store.wakeClaims) {lookup : ThreadLookup}
    {afterSeq : Nat} :
    claim ∈ coordinator.pendingSealedAssignments lookup afterSeq ↔
      claim ∈ coordinator.sealedPending lookup ∧ afterSeq < claim.wireSeq := by
  have hlength : ((coordinator.sealedPending lookup).filter fun claim =>
      afterSeq < claim.wireSeq).length < (coordinator.sealedPending lookup).length + 1 :=
    Nat.lt_succ_of_le (List.length_filter_le _ _)
  rw [pendingSealedAssignments, shortPages_eq (sealedPending_ordered hdistinct lookup) (by decide)
    hlength, List.mem_filter, decide_eq_true_eq]

/-! ### The attempts stored -/

def Attempted (coordinator : Coordinator) (lookup : ThreadLookup)
    (reference : MessageReference) : Prop :=
  ∃ row ∈ coordinator.harness.values, row.recipientLookup = lookup ∧ row.reference = reference

instance (coordinator : Coordinator) (lookup : ThreadLookup) (reference : MessageReference) :
    Decidable (coordinator.Attempted lookup reference) := by
  unfold Attempted
  infer_instance

variable {coordinator coordinator' : Coordinator}

/-- What a write of one attempt does to the table: no attempt is lost, and only this one
is added. -/
structure AttemptWritten (attempt : HarnessDelivery) (coordinator coordinator' : Coordinator) :
    Prop where
  kept : ∀ {lookup reference}, coordinator.Attempted lookup reference →
    coordinator'.Attempted lookup reference
  added : ∀ {lookup reference}, coordinator'.Attempted lookup reference →
    coordinator.Attempted lookup reference ∨
      lookup = attempt.recipientLookup ∧ reference = attempt.reference

theorem AttemptWritten.refl (attempt : HarnessDelivery) (coordinator : Coordinator) :
    AttemptWritten attempt coordinator coordinator := ⟨id, .inl⟩

theorem insertHarness_written (hok : coordinator.insertHarness attempt = .ok coordinator') :
    AttemptWritten attempt coordinator coordinator' ∧
      coordinator' = { coordinator with harness := coordinator'.harness } := by
  simp only [insertHarness, do_eq_ok, Store.accepted_eq_ok] at hok
  obtain ⟨_, -, table, hinsert, rfl⟩ := hok
  have hinserted := Table.inserted_of_insert? hinsert
  refine ⟨⟨?_, ?_⟩, rfl⟩
  · rintro _ _ ⟨row, hrow, rfl, rfl⟩
    exact ⟨row, Table.mem_values_of_get? (hinserted.kept (Table.mem_values.mp hrow)), rfl, rfl⟩
  · rintro _ _ ⟨row, hrow, rfl, rfl⟩
    rcases hinserted.get?_cases (Table.mem_values.mp hrow) with ⟨-, rfl⟩ | hget
    · exact .inr ⟨rfl, rfl⟩
    · exact .inl ⟨row, Table.mem_values_of_get? hget, rfl, rfl⟩

theorem reference_of_admits {row' : HarnessDelivery} (hadmits : Record.Admits row row') :
    row'.recipientLookup = row.recipientLookup ∧ row'.reference = row.reference := by
  obtain ⟨hidentity, hseq⟩ := hadmits
  simp only [HarnessDelivery.identity, Prod.mk.injEq] at hidentity
  exact ⟨hidentity.2.1, by
    rw [HarnessDelivery.reference, HarnessDelivery.reference, hseq, hidentity.2.2]⟩

theorem upsertHarness_written (hok : coordinator.upsertHarness attempt = .ok coordinator') :
    AttemptWritten attempt coordinator coordinator' ∧
      coordinator' = { coordinator with harness := coordinator'.harness } := by
  unfold upsertHarness at hok
  split at hok
  · exact insertHarness_written hok
  · simp only [do_eq_ok, Store.accepted_eq_ok] at hok
    obtain ⟨table, hupdate, rfl⟩ := hok
    refine ⟨?_, rfl⟩
    cases Table.updated_of_update? hupdate with
    | unmatched hsame =>
      subst hsame
      exact .refl attempt coordinator
    | changed old hold _ hadmits _ hget =>
      obtain ⟨hlookup, hreference⟩ := reference_of_admits hadmits
      have hstored : attempt ∈ table.values :=
        Table.mem_values_of_get? ((hget attempt.identity).trans (if_pos rfl))
      constructor
      · rintro _ _ ⟨row, hrow, rfl, rfl⟩
        by_cases hkey : row.identity = attempt.identity
        · have hrow' := Table.mem_values.mp hrow
          rw [show Record.key row = attempt.identity from hkey, hold, Option.some.injEq] at hrow'
          subst hrow'
          exact ⟨attempt, hstored, hlookup, hreference⟩
        · refine ⟨row, Table.mem_values.mpr ?_, rfl, rfl⟩
          exact (hget row.identity).trans ((if_neg hkey).trans (Table.mem_values.mp hrow))
      · rintro _ _ ⟨row, hrow, rfl, rfl⟩
        have hrow' := (hget row.identity).symm.trans (Table.mem_values.mp hrow)
        by_cases hkey : row.identity = attempt.identity
        · rw [if_pos hkey, Option.some.injEq] at hrow'
          exact .inr ⟨hrow' ▸ rfl, hrow' ▸ rfl⟩
        · rw [if_neg hkey] at hrow'
          exact .inl ⟨row, Table.mem_values_of_get? hrow', rfl, rfl⟩

/-- What storing an attempt did: its claim is out of the queue, and it is stored. -/
structure HandedIn (attempt : HarnessDelivery) (coordinator coordinator' : Coordinator) : Prop where
  effect : HarnessEffect attempt coordinator.store coordinator'.store
  written : AttemptWritten attempt coordinator coordinator'
  rest : coordinator' = { coordinator with
    store := coordinator'.store, harness := coordinator'.harness }

section

variable (hdistinct : DistinctClaims coordinator.store.wakeClaims)
include hdistinct

theorem HandedIn.of_settled {settled : Store}
    (hsettle : settleClaims readings coordinator.store attempt = .ok settled)
    (hok : AttemptWritten attempt { coordinator with store := settled } coordinator' ∧
      coordinator' = { coordinator with store := settled, harness := coordinator'.harness }) :
    HandedIn attempt coordinator coordinator' := by
  have heffect := settleClaims_effect hdistinct hsettle
  obtain ⟨hwritten, hrest⟩ := hok
  rw [hrest] at hwritten ⊢
  exact ⟨heffect, ⟨hwritten.kept, hwritten.added⟩, rfl⟩

theorem recordIn_handedIn (hok : recordIn readings attempt coordinator = .ok (coordinator', row)) :
    HandedIn attempt coordinator coordinator' := by
  simp only [recordIn, writeHarness, do_eq_ok] at hok
  obtain ⟨settled, hsettle, _, ⟨_, -, hupsert⟩, rfl, -⟩ := hok
  exact .of_settled hdistinct hsettle (upsertHarness_written hupsert)

theorem beginHarness_handedIn {stored : Bool}
    (hok : beginHarness readings attempt coordinator = .ok (coordinator', stored)) :
    HandedIn attempt coordinator coordinator' := by
  obtain ⟨hok, -⟩ := writing_eq_ok.mp hok
  simp only [bind_eq_ok] at hok
  obtain ⟨settled, hsettle, hfirst⟩ := hok
  simp only [firstWrite, bind_eq_ok] at hfirst
  obtain ⟨row, -, hfirst⟩ := hfirst
  split at hfirst
  · cases hfirst
    exact .of_settled hdistinct hsettle ⟨.refl _ _, rfl⟩
  · simp only [do_eq_ok] at hfirst
    obtain ⟨_, hinsert, rfl, -⟩ := hfirst
    exact .of_settled hdistinct hsettle (insertHarness_written hinsert)

theorem applyHarness_handedIn {change : HarnessDelivery → HarnessDelivery}
    (hok : applyHarness readings change attempt coordinator = .ok (coordinator', row)) :
    coordinator' = coordinator ∨ ∃ old, coordinator.harness.get? attempt.identity = some old ∧
      HandedIn (change old) coordinator coordinator' := by
  obtain ⟨hok, -⟩ := writing_eq_ok.mp hok
  simp only [do_eq_ok] at hok
  obtain ⟨found, hstored, old, rfl, hsettle⟩ := hok
  have hget : coordinator.harness.get? attempt.identity = some old := by
    unfold stored at hstored
    split at hstored
    · cases hstored
    next other hother =>
      simp only [do_eq_ok, Option.some.injEq] at hstored
      obtain ⟨_, -, rfl⟩ := hstored
      exact hother
  unfold settleOutcome at hsettle
  split at hsettle
  · simp only [do_eq_ok] at hsettle
    obtain ⟨_, -, _, -, rfl, -⟩ := hsettle
    exact .inl rfl
  · exact .inr ⟨old, hget, recordIn_handedIn hdistinct hsettle⟩

end

/-! ### The acceptance of a cohort -/

/-- What an acceptance did to the claims: the stored ones stay, and a new one is unbound,
and out of the queue when its recipient has an attempt on its message. -/
structure AcceptanceEffect (coordinator coordinator' : Coordinator) : Prop where
  existing : ∀ {k claim}, coordinator.store.wakeClaims.get? k = some claim →
    coordinator'.store.wakeClaims.get? k = some claim
  created : ∀ {k claim}, coordinator'.store.wakeClaims.get? k = some claim →
    coordinator.store.wakeClaims.get? k = some claim ∨
      coordinator.store.wakeClaims.get? k = none ∧ claim.lifecycle.executionId = none ∧
        (coordinator.Attempted claim.recipientLookup claim.source →
          claim.lifecycle.isPending = false)
  evolve : ClaimsEvolve coordinator.store coordinator'.store
  rest : coordinator' = { coordinator with
    store := coordinator'.store, receipts := coordinator'.receipts }

/-- The claims of a cohort are unbound claims on its message. -/
theorem expected_of_expectedAssignments {acceptedAt : Time}
    (hok : initial.expectedAssignments identify acceptedAt = .ok expected)
    (hclaim : claim ∈ expected) :
    claim.lifecycle.executionId = none ∧ claim.source = initial.reference := by
  obtain ⟨groups, hgroups, rfl⟩ := map_eq_ok.mp hok
  obtain ⟨group, hgroup, hclaim⟩ := List.mem_flatten.mp hclaim
  obtain ⟨member, -, hmember⟩ := (mem_of_mapM hgroups).1 group hgroup
  simp only [Delivered.expectedFor, do_eq_ok] at hmember
  obtain ⟨_, -, rfl⟩ := hmember
  rw [Option.mem_toList, Delivered.claimOf] at hclaim
  split at hclaim
  · cases hclaim
  next lookup audience mode _ =>
    obtain rfl := Option.some.inj hclaim
    refine ⟨?_, rfl⟩
    cases mode with
    | passive => rfl
    | active wake => cases wake <;> rfl

/-- The claims while an acceptance runs: the stored ones, and new ones of its message. -/
structure Accepting (initial : Delivered) (expected : List WakeAssignment) (store later : Store) :
    Prop where
  existing : ∀ {k claim}, store.wakeClaims.get? k = some claim →
    later.wakeClaims.get? k = some claim
  created : ∀ {k claim}, later.wakeClaims.get? k = some claim →
    store.wakeClaims.get? k = some claim ∨ store.wakeClaims.get? k = none ∧
      claim.lifecycle.executionId = none ∧ claim.source = initial.reference ∧
        ∃ accepted ∈ expected, accepted.recipientLookup = claim.recipientLookup
  distinct : DistinctClaims later.wakeClaims

theorem accepting_of_inserts {created : Store} (hdistinct : DistinctClaims store.wakeClaims)
    (hexpected : ∀ claim ∈ expected, claim.lifecycle.executionId = none ∧
      claim.source = initial.reference)
    (hok : expected.foldlM Store.insertWakeClaim store = .ok created) :
    Accepting initial expected store created := by
  refine foldlM_invariant (Accepting initial expected store) ?_
    ⟨id, .inl, hdistinct⟩ hok
  intro claim hclaim s t haccepting hinsert
  have hdistinct' : DistinctClaims t.wakeClaims :=
    (ClaimsEvolve.of_writes (Store.insertWakeClaim_writes hinsert)).distinct haccepting.distinct
  simp only [Store.insertWakeClaim, do_eq_ok, Store.accepted_eq_ok] at hinsert
  obtain ⟨_, -, table, htable, rfl⟩ := hinsert
  have hinserted := Table.inserted_of_insert? htable
  refine ⟨fun hget => hinserted.kept (haccepting.existing hget), ?_, hdistinct'⟩
  intro k stored hget
  rcases hinserted.get?_cases hget with ⟨rfl, rfl⟩ | hget
  · -- the key was free, so it was free before the acceptance
    refine .inr ⟨?_, (hexpected _ hclaim).1, (hexpected _ hclaim).2, _, hclaim, rfl⟩
    cases hbefore : store.wakeClaims.get? (Record.key stored) with
    | none => rfl
    | some =>
      have hstored := haccepting.existing hbefore
      rw [hinserted.fresh] at hstored
      cases hstored
  · exact haccepting.created hget

def Taken (attempt : HarnessDelivery) (store : Store) : Prop :=
  ∀ k claim, store.wakeClaims.get? k = some claim →
    claim.recipientLookup = attempt.recipientLookup → claim.wireSeq = attempt.seq →
      claim.lifecycle.isPending = false

/-- The attempts on the accepted message, one after another. -/
theorem accepting_of_settles {attempts : List HarnessDelivery} {created settled : Store}
    (hfresh : ∀ claim ∈ store.wakeClaims.values, claim.wireSeq ≠ initial.reference.seq)
    (hattempts : ∀ attempt ∈ attempts, attempt.reference = initial.reference)
    (hcreated : Accepting initial expected store created)
    (hok : attempts.foldlM (settleClaims readings) created = .ok settled) :
    Accepting initial expected store settled ∧
      ∀ attempt ∈ attempts, Taken attempt settled := by
  have hstep : ∀ attempt ∈ attempts, ∀ s t, Accepting initial expected store s →
      settleClaims readings s attempt = .ok t → Accepting initial expected store t := by
    intro attempt hattempt s t haccepting hsettle
    have heffect := settleClaims_effect haccepting.distinct hsettle
    refine ⟨fun {k claim} hget => ?_, fun {k later} hlater => ?_,
      heffect.evolve.distinct haccepting.distinct⟩
    · -- no stored claim is on this message
      refine heffect.others (haccepting.existing hget) fun hmatches => ?_
      refine hfresh claim (Table.mem_values_of_get? hget) ?_
      rw [hmatches.2, ← hattempts attempt hattempt]
      rfl
    · obtain ⟨claim, hclaim, hcases⟩ := heffect.origin hlater
      rcases haccepting.created hclaim with hbefore | ⟨hnone, hunbound, hsource, member⟩
      · refine .inl ?_
        rcases hcases with ⟨rfl, -⟩ | ⟨-, hseq, -⟩
        · exact hbefore
        · refine absurd ?_ (hfresh claim (Table.mem_values_of_get? hbefore))
          rw [hseq, ← hattempts attempt hattempt]
          rfl
      · obtain ⟨found, hfound, hchain⟩ := heffect.evolve.kept hclaim
        obtain rfl := Option.mem_unique hfound hlater
        obtain ⟨-, -, hlookup, hseq, hmessage, -⟩ := (WakeAssignment.follows_of_chain hchain).acceptance
        have hsource' : found.source = claim.source := by
          rw [WakeAssignment.source, WakeAssignment.source, hseq, hmessage]
        refine .inr ⟨hnone, ?_, hsource'.trans hsource, ?_⟩
        · rcases hcases with ⟨rfl, -⟩ | ⟨-, -, hoff⟩
          · exact hunbound
          · exact hoff.unbound hunbound
        · obtain ⟨accepted, haccepted, hrecipient⟩ := member
          exact ⟨accepted, haccepted, hrecipient.trans hlookup.symm⟩
  refine ⟨foldlM_invariant _ hstep hcreated hok, ?_⟩
  refine foldlM_establishes (Accepting initial expected store) Taken hstep ?_ ?_ hcreated hok
  · intro attempt _ s t haccepting hsettle k later hlater hlookup hseq
    have heffect := settleClaims_effect haccepting.distinct hsettle
    obtain ⟨claim, -, ⟨rfl, hother⟩ | ⟨-, -, hoff⟩⟩ := heffect.origin hlater
    · exact absurd ⟨hlookup, hseq⟩ hother
    · exact hoff.not_pending
  · intro attempt other _ s t haccepting hdone hsettle k later hlater hlookup hseq
    have heffect := settleClaims_effect haccepting.distinct hsettle
    obtain ⟨claim, hclaim, ⟨rfl, -⟩ | ⟨-, -, hoff⟩⟩ := heffect.origin hlater
    · exact hdone k _ hclaim hlookup hseq
    · exact hoff.not_pending

theorem recordCohort_effect {clock : Clock} {wireRootId : String} {result : Applied AcceptedCohort}
    (hdistinct : DistinctClaims coordinator.store.wakeClaims)
    (hok : recordCohort clock readings identify wireRootId initial coordinator =
      .ok (coordinator', result)) : AcceptanceEffect coordinator coordinator' := by
  have hevolve := ClaimsEvolve.of_writes (recordCohort_writes hok)
  obtain ⟨hok, -⟩ := writing_eq_ok.mp hok
  split at hok
  · simp only [do_eq_ok] at hok
    obtain ⟨_, -, rfl, -⟩ := hok
    exact ⟨id, .inl, hevolve, rfl⟩
  · simp only [recordNewCohort, do_eq_ok] at hok
    obtain ⟨_, hfresh, _, -, _, -, expected, hexpected, receipts, -, created, hinsert, settled,
      hsettle, _, -, rfl, -⟩ := hok
    have hmember : ∀ claim ∈ expected, claim.lifecycle.executionId = none ∧
        claim.source = initial.reference :=
      fun _ hclaim => expected_of_expectedAssignments hexpected hclaim
    have hcreated := accepting_of_inserts hdistinct hmember hinsert
    have hreference : ∀ attempt ∈ coordinator.attemptsFor initial expected,
        attempt.reference = initial.reference := by
      intro attempt hattempt
      have hselected := (Table.mem_selectBy.mp hattempt).2
      rw [Bool.and_eq_true, beq_iff_eq] at hselected
      exact hselected.1
    obtain ⟨hsettled, hdone⟩ := accepting_of_settles hfresh hreference hcreated hsettle
    refine ⟨hsettled.existing, fun {k claim} hget => ?_, hevolve, rfl⟩
    rcases hsettled.created hget with
      hbefore | ⟨hnone, hunbound, hsource, accepted, haccepted, hrecipient⟩
    · exact .inl hbefore
    · refine .inr ⟨hnone, hunbound, ?_⟩
      rintro ⟨row, hrow, hlookup, hreference'⟩
      refine hdone row ?_ k claim hget hlookup.symm ?_
      · refine Table.mem_selectBy.mpr ⟨Table.mem_values.mp hrow, ?_⟩
        rw [Bool.and_eq_true, beq_iff_eq, List.any_eq_true]
        exact ⟨hreference'.trans hsource, accepted, haccepted,
          beq_iff_eq.mpr (hrecipient.trans hlookup.symm)⟩
      · exact congrArg MessageReference.seq hreference'.symm

end Coordinator

/-! ### The restoration of a claim -/

theorem AssignmentState.deferred_of_unbound {state : AssignmentState}
    (hkind : state.kind = .deferred) (hunbound : state.executionId = none) :
    ∃ wake, state = .deferred (.pending wake) := by
  cases state with
  | deferred decision =>
    cases decision with
    | pending wake => exact ⟨wake, rfl⟩
    | engaged => cases hunbound
  | _ => cases hkind

namespace Store

variable {store : Store} {claim : WakeAssignment}

/-- Claims that are stored or unbound keep the foreign keys. -/
theorem ForeignKeys.of_claims (hkeys : store.ForeignKeys) {claims : Table WakeAssignment}
    (hclaims : ∀ claim ∈ claims.values, claim ∈ store.wakeClaims.values ∨
      claim.lifecycle.engagement? = none) :
    { store with wakeClaims := claims }.ForeignKeys := by
  refine ⟨hkeys.1, hkeys.2.1, hkeys.2.2.1, fun claim hclaim => ?_, hkeys.2.2.2.2⟩
  rcases hclaims claim hclaim with hstored | hunbound
  · exact hkeys.2.2.2.1 claim hstored
  · rw [claimReferences, hunbound]
    rfl

/-- An UPDATE of the selected row goes through when its change is admitted and valid. -/
theorem updateWakeClaim_ok {assignmentId : AssignmentId} {selects : WakeAssignment → Bool}
    {lifecycle : AssignmentState} {revision : Nat} {updatedAt : Time}
    (hget : store.wakeClaims.get? assignmentId = some claim) (hselects : selects claim = true)
    (hunbound : lifecycle.executionId = none)
    (hadmits : Record.Admits claim { claim with lifecycle, revision, updatedAt })
    (hvalid : Record.Valid { claim with lifecycle, revision, updatedAt }) :
    store.updateWakeClaim assignmentId selects lifecycle revision updatedAt =
      .ok { store with
        wakeClaims := store.wakeClaims.put { claim with lifecycle, revision, updatedAt } hvalid } := by
  have hupdate : store.wakeClaims.update? assignmentId selects
      (fun row => { row with lifecycle, revision, updatedAt }) =
        some (store.wakeClaims.put { claim with lifecycle, revision, updatedAt } hvalid) :=
    Table.update?_eq_some hget hselects hadmits hvalid
  simp only [updateWakeClaim, do_eq_ok, accepted_eq_ok, exists_const]
  exact ⟨by rw [hunbound]; rfl, _, hupdate, rfl⟩

def restoredClaim (clock : Clock) (claim : WakeAssignment) : WakeAssignment :=
  { claim with
    lifecycle := claim.lifecycle.mode.initialState
    updatedAt := clock.now (.assignment claim.assignmentId) claim.updatedAt
    revision := claim.revision + 1 }

theorem admits_restoredClaim {wake : ActiveWake}
    (hstate : claim.lifecycle = .deferred (.pending wake)) (clock : Clock) :
    Record.Admits claim (restoredClaim clock claim) := by
  refine ⟨⟨rfl, rfl, rfl, rfl, rfl, rfl, rfl, rfl, rfl, ?_⟩, ⟨?_, ?_, ?_, ?_⟩, rfl,
    le_max_right _ _, ?_⟩
  all_goals
    simp only [restoredClaim, hstate]
    cases wake <;> simp [AssignmentState.verdict, AssignmentState.executionId,
      AssignmentState.exactTarget, AssignmentState.engagement?, AssignmentState.mode,
      Decision.mode, Decision.engagement?, WakePolicy.initialState, AssignmentState.kind,
      AssignmentKind.successors]

/-- An unbound deferred claim returns to its initial state. -/
theorem restores (hkeys : store.ForeignKeys)
    (hget : store.wakeClaims.get? claim.assignmentId = some claim)
    (hdeferred : claim.lifecycle.kind = .deferred) (hunbound : claim.lifecycle.executionId = none)
    (clock : Clock) : ∃ store',
      store.transitionPreengagement clock claim.assignmentId
        claim.lifecycle.mode.initialState.kind claim.revision =
          .ok (store', restoredClaim clock claim) := by
  obtain ⟨wake, hstate⟩ := AssignmentState.deferred_of_unbound hdeferred hunbound
  have hinitial : claim.lifecycle.mode.initialState.engagement? = none := by
    rw [hstate]
    cases wake <;> rfl
  have hstep : claim.lifecycle.preengagement claim.lifecycle.mode.initialState.kind =
      .ok claim.lifecycle.mode.initialState := by
    rw [hstate]
    cases wake <;> rfl
  have hadmits := admits_restoredClaim hstate clock
  have hvalid : Record.Valid (restoredClaim clock claim) := by
    obtain ⟨h₁, h₂, h₃, h₄, h₅, h₆, -, -, h₇, -, h₈⟩ := store.wakeClaims.valid _ _ hget
    refine ⟨h₁, h₂, h₃, h₄, h₅, h₆, ?_, ?_, h₇, Nat.succ_pos _, h₈.trans (le_max_right _ _)⟩
    · show Option.all _ claim.lifecycle.mode.initialState.exactTarget = true
      rw [AssignmentState.exactTarget, hinitial]
      rfl
    · show Option.all _ claim.lifecycle.mode.initialState.executionId = true
      rw [AssignmentState.executionId, hinitial]
      rfl
  have hclear : claim.lifecycle.mode.initialState.executionId = none := by
    rw [AssignmentState.executionId, hinitial]
    rfl
  have hselects : (claim.revision == claim.revision) = true := beq_self_eq_true _
  refine ⟨{ store with wakeClaims := store.wakeClaims.put (restoredClaim clock claim) hvalid }, ?_⟩
  rw [transitionPreengagement, writing_eq_ok]
  constructor
  · simp only [transitionIn, do_eq_ok, exists_const, assignment_eq_ok]
    exact ⟨claim, hget, rfl, _, hstep, _,
      updateWakeClaim_ok hget hselects hclear hadmits hvalid, rfl, rfl⟩
  · refine hkeys.of_claims fun other hother => ?_
    have hstored := Table.mem_values.mp hother
    rw [Table.get?_put] at hstored
    split at hstored
    · refine .inr ?_
      rw [← Option.some.inj hstored]
      exact hinitial
    · exact .inl (Table.mem_values_of_get? hstored)

end Store

end AgentComms.Coordination
