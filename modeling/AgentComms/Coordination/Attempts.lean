import AgentComms.Coordination.Handoffs

/-!
# Bridges and acceptance in any order

A bridge may attempt a message before or after its recipients' claims are accepted. Each
stored attempt proves a progress of the message for its recipient. A claim stands where the
greatest of them puts it, whichever came first.
-/

namespace AgentComms.Coordination

open Library Relation

/-! ### Progress -/

/-- How far the attempts of bridges took one message for one recipient. -/
inductive HarnessProgress where
  | untouched | handedOff | observed
deriving DecidableEq, Repr

namespace HarnessProgress

def rank : HarnessProgress → Nat
  | untouched => 0
  | handedOff => 1
  | observed => 2

theorem rank_injective : Function.Injective rank := by
  intro a b hrank
  cases a <;> cases b <;> first | rfl | cases hrank

instance : LinearOrder HarnessProgress := LinearOrder.lift' rank rank_injective

theorem untouched_le (progress : HarnessProgress) : untouched ≤ progress := Nat.zero_le _

theorem le_observed (progress : HarnessProgress) : progress ≤ observed := by
  cases progress <;> decide

def claimState (mode : WakePolicy) (progress : HarnessProgress) : AssignmentState :=
  match mode, progress with
  | .passive, _ => .passive
  | .active wake, untouched => (WakePolicy.active wake).initialState
  | .active wake, handedOff => .deferred (.pending wake)
  | .active wake, observed => .delivered wake

theorem engagement?_claimState (mode : WakePolicy) (progress : HarnessProgress) :
    (progress.claimState mode).engagement? = none := by
  rcases mode with _ | _ | _ <;> cases progress <;> rfl

end HarnessProgress

def HarnessDelivery.progress (attempt : HarnessDelivery) : HarnessProgress :=
  match attempt.monitor with
  | .observed _ => .observed
  | _ => .handedOff

theorem HarnessDelivery.handedOff_le (attempt : HarnessDelivery) :
    .handedOff ≤ attempt.progress := by
  unfold progress
  split <;> decide

/-! ### Steps that are not refused -/

/-- The declared steps, at most one, lead from a state to another. -/
def AssignmentState.Takes (state : AssignmentState) (steps : List AssignmentKind)
    (after : AssignmentState) : Prop :=
  steps = [] ∧ after = state ∨ ∃ kind, steps = [kind] ∧ state.preengagement kind = .ok after

namespace Store

variable {store store' : Store} {kind : AssignmentKind} {claim : WakeAssignment}
  {after : AssignmentState}

theorem engagement?_of_unbound {state : AssignmentState} (hunbound : state.executionId = none) :
    state.engagement? = none := by
  rwa [AssignmentState.executionId, Option.map_eq_none_iff] at hunbound

/-- An unbound claim with a declared step has no verdict. -/
theorem verdict_of_successor {state : AssignmentState} (hunbound : state.executionId = none)
    (hsuccessor : kind ∈ state.kind.successors) : state.verdict = none := by
  cases state with
  | ignored => cases hsuccessor
  | engaged decision | completed decision => cases hunbound
  | deferred decision | failed decision =>
    cases decision with
    | pending => rfl
    | engaged => cases hunbound
  | passive | triagePending | fullPending | delivered wake => rfl

def steppedClaim (clock : Clock) (claim : WakeAssignment) (after : AssignmentState) :
    WakeAssignment :=
  { claim with
    lifecycle := after
    updatedAt := clock.now (.assignment claim.assignmentId) claim.updatedAt
    revision := claim.revision + 1 }

theorem admits_steppedClaim (hstep : claim.lifecycle.preengagement kind = .ok after) (clock : Clock)
    : Record.Admits claim (steppedClaim clock claim after) := by
  obtain ⟨hunbound, hsuccessor, hkind, hafter, hmode⟩ := AssignmentState.preengagement_eq_ok hstep
  refine ⟨⟨rfl, rfl, rfl, rfl, rfl, rfl, rfl, rfl, rfl, hmode⟩, ⟨?_, ?_, ?_, ?_⟩, rfl,
    le_max_right _ _, ?_⟩
  · rw [verdict_of_successor hunbound hsuccessor]
    exact fun hsome => absurd hsome (by decide)
  · rw [hunbound]
    exact fun hsome => absurd hsome (by decide)
  · rw [AssignmentState.exactTarget, engagement?_of_unbound hunbound]
    exact fun hsome => absurd hsome (by decide)
  · intro _ hsome
    rw [show (steppedClaim clock claim after).lifecycle = after from rfl, hafter] at hsome
    exact absurd hsome (by decide)
  · rw [show (steppedClaim clock claim after).lifecycle = after from rfl, hkind]
    exact hsuccessor

theorem valid_steppedClaim (hvalid : Record.Valid claim)
    (hstep : claim.lifecycle.preengagement kind = .ok after) (clock : Clock) :
    Record.Valid (steppedClaim clock claim after) := by
  have hunbound := engagement?_of_unbound (AssignmentState.preengagement_eq_ok hstep).2.2.2.1
  obtain ⟨h₁, h₂, h₃, h₄, h₅, h₆, -, -, h₇, -, h₈⟩ := hvalid
  refine ⟨h₁, h₂, h₃, h₄, h₅, h₆, ?_, ?_, h₇, Nat.succ_pos _, h₈.trans (le_max_right _ _)⟩
  · show Option.all _ after.exactTarget = true
    rw [AssignmentState.exactTarget, hunbound]
    rfl
  · show Option.all _ after.executionId = true
    rw [AssignmentState.executionId, hunbound]
    rfl

variable (hget : store.wakeClaims.get? claim.assignmentId = some claim)
include hget

/-- A declared step of a stored claim is never refused. -/
theorem transitionIn_ok (hstep : claim.lifecycle.preengagement kind = .ok after) (clock : Clock) :
    ∃ store', store.transitionIn clock claim.assignmentId kind claim.revision =
      .ok (store', steppedClaim clock claim after) := by
  have hvalid := valid_steppedClaim (store.wakeClaims.valid _ _ hget) hstep clock
  have hselects : (claim.revision == claim.revision) = true := beq_self_eq_true _
  refine ⟨{ store with wakeClaims :=
    store.wakeClaims.put (steppedClaim clock claim after) hvalid }, ?_⟩
  simp only [transitionIn, do_eq_ok, exists_const, assignment_eq_ok]
  exact ⟨claim, hget, rfl, _, hstep, _, updateWakeClaim_ok hget hselects
    (AssignmentState.preengagement_eq_ok hstep).2.2.2.1 (admits_steppedClaim hstep clock) hvalid,
    rfl, rfl⟩

/-- Where a walk leaves its claim: only the lifecycle and its revision moved. -/
structure Walked (claim : WakeAssignment) (after : AssignmentState) (store store' : Store) :
    Prop where
  same : SameBut claim.assignmentId store store'
  stored : ∃ later, store'.wakeClaims.get? claim.assignmentId = some later ∧
    later.lifecycle = after ∧ WakeAssignment.SameAcceptance claim later

theorem walk_takes (readings : Readings) {steps : List AssignmentKind}
    (htakes : claim.lifecycle.Takes steps after) :
    ∃ store', store.walk readings claim steps = .ok store' ∧ Walked claim after store store' := by
  rcases htakes with ⟨rfl, rfl⟩ | ⟨kind, rfl, hstep⟩
  · exact ⟨store, rfl, .refl _ _, claim, hget, rfl, .refl claim⟩
  · obtain ⟨store', hok⟩ := transitionIn_ok hget hstep (readings kind)
    obtain ⟨before, -, hstepped⟩ := transitionIn_stepped hok
    obtain rfl := Option.mem_unique hstepped.stored hget
    refine ⟨store', ?_, hstepped.sameBut, _, hstepped.get?_self, rfl, hstepped.admits.1⟩
    simp only [walk, do_eq_ok, Prod.exists]
    exact ⟨store', _, hok, rfl⟩

theorem claimsAt_eq_singleton (hdistinct : DistinctClaims store.wakeClaims) :
    store.claimsAt claim.recipientLookup claim.wireSeq = [claim] := by
  have hmem : claim ∈ store.claimsAt claim.recipientLookup claim.wireSeq :=
    mem_claimsAt.mpr ⟨hget, rfl, rfl⟩
  rcases claimsAt_cases hdistinct claim.recipientLookup claim.wireSeq with hnone | ⟨other, hother⟩
  · rw [hnone] at hmem
    cases hmem
  · rw [hother, List.mem_singleton] at hmem
    rw [hother, hmem]

theorem settleHarnessInputs_takes (readings : Readings)
    (hdistinct : DistinctClaims store.wakeClaims) {steps : AssignmentState → List AssignmentKind}
    (htakes : claim.lifecycle.Takes (steps claim.lifecycle) after) :
    ∃ store', store.settleHarnessInputs readings claim.recipientLookup claim.source steps =
      .ok store' ∧ Walked claim after store store' := by
  obtain ⟨store', hwalk, hwalked⟩ := walk_takes hget readings htakes
  refine ⟨store', ?_, hwalked⟩
  rw [settleHarnessInputs, show claim.source.seq = claim.wireSeq from rfl,
    claimsAt_eq_singleton hget hdistinct]
  simp only [List.foldlM_cons, List.foldlM_nil, do_eq_ok]
  exact ⟨store', ⟨(), trivial, hwalk⟩, rfl⟩

end Store

namespace Coordinator

variable {store store' : Store} {attempt : HarnessDelivery} {claim : WakeAssignment}
  {progress : ThreadLookup → HarnessProgress} {reference : MessageReference}
  {expected : List WakeAssignment}

/-- An attempt on a message nobody accepted changes no claim. -/
theorem settleClaims_absent (readings : Readings)
    (hnone : store.claimsAt attempt.recipientLookup attempt.seq = []) :
    settleClaims readings store attempt = .ok store := by
  have hphase : ∀ steps, store.settleHarnessInputs readings attempt.recipientLookup
      attempt.reference steps = .ok store := by
    intro steps
    rw [Store.settleHarnessInputs, show attempt.reference.seq = attempt.seq from rfl, hnone]
    rfl
  simp only [settleClaims, bind_eq_ok]
  exact ⟨store, hphase _, hphase _⟩

/-- An attempt on an accepted message is never refused, and its claim takes its progress. -/
theorem settleClaims_standing (readings : Readings)
    (hdistinct : DistinctClaims store.wakeClaims) {mode : WakePolicy} {progress : HarnessProgress}
    (hget : store.wakeClaims.get? claim.assignmentId = some claim)
    (hlookup : claim.recipientLookup = attempt.recipientLookup)
    (hsource : claim.source = attempt.reference)
    (hstate : claim.lifecycle = progress.claimState mode) :
    ∃ store', settleClaims readings store attempt = .ok store' ∧
      Store.Walked claim ((max progress attempt.progress).claimState mode) store store' := by
  have hfirst : claim.lifecycle.Takes claim.lifecycle.harnessHandoff
      ((max progress .handedOff).claimState mode) := by
    rw [hstate]
    rcases mode with _ | _ | _ <;> cases progress
    all_goals first
      | exact .inl ⟨rfl, rfl⟩
      | exact .inr ⟨_, rfl, rfl⟩
  obtain ⟨middle, hhandoff, hsame, later, hlater, hlifecycle, hacceptance⟩ :=
    Store.settleHarnessInputs_takes hget readings hdistinct hfirst
  -- the second phase reads the claim as the first one left it
  have hsecond : later.lifecycle.Takes (attempt.monitor.claimSteps later.lifecycle)
      ((max (max progress .handedOff) attempt.progress).claimState mode) := by
    rw [hlifecycle]
    have hout : .handedOff ≤ max progress .handedOff := le_max_right _ _
    generalize max progress .handedOff = reached at hout
    unfold HarnessDelivery.progress
    cases attempt.monitor
    case observed =>
      rcases mode with _ | _ | _ <;> cases reached
      all_goals first
        | exact absurd hout (by decide)
        | exact .inl ⟨rfl, rfl⟩
        | exact .inr ⟨_, rfl, rfl⟩
    all_goals exact .inl ⟨rfl, by rw [max_eq_left hout]⟩
  have hkey : later.assignmentId = claim.assignmentId := hacceptance.1
  have hsource' : later.source = claim.source := by
    rw [WakeAssignment.source, WakeAssignment.source, hacceptance.2.2.2.1, hacceptance.2.2.2.2.1]
  have hmiddle : DistinctClaims middle.wakeClaims :=
    (ClaimsEvolve.of_writes (Store.settleHarnessInputs_writes hhandoff)).distinct hdistinct
  obtain ⟨last, hproof, hsame', found, hfound, hlifecycle', hacceptance'⟩ :=
    Store.settleHarnessInputs_takes (hkey ▸ hlater) readings hmiddle hsecond
  rw [hkey] at hsame' hfound
  rw [max_assoc, max_eq_right attempt.handedOff_le] at hlifecycle'
  refine ⟨last, ?_, hsame.trans hsame', found, hfound, hlifecycle', hacceptance.trans hacceptance'⟩
  rw [hacceptance.2.2.1, hsource'] at hproof
  simp only [settleClaims, bind_eq_ok, ← hlookup, ← hsource]
  exact ⟨middle, hhandoff, hproof⟩

/-! ### The progress the stored attempts prove -/

/-- The greatest progress any stored attempt on the message proves for the recipient. -/
def progressOf (coordinator : Coordinator) (reference : MessageReference)
    (lookup : ThreadLookup) : HarnessProgress :=
  if ∃ row ∈ coordinator.harness.values, row.recipientLookup = lookup ∧
      row.reference = reference ∧ row.progress = .observed then .observed
  else if coordinator.Attempted lookup reference then .handedOff
  else .untouched

variable {coordinator coordinator' : Coordinator}

theorem progressOf_le {lookup : ThreadLookup} {progress : HarnessProgress}
    : coordinator.progressOf reference lookup ≤ progress ↔
      ∀ row ∈ coordinator.harness.values, row.recipientLookup = lookup →
        row.reference = reference → row.progress ≤ progress := by
  unfold progressOf
  split
  next hobserved =>
    obtain ⟨row, hrow, hlookup, hreference, hprogress⟩ := hobserved
    refine ⟨fun hle other _ _ _ => ((other.progress.le_observed).trans hle), fun hall => ?_⟩
    exact hprogress ▸ hall row hrow hlookup hreference
  next hunobserved =>
    have hopen : ∀ row ∈ coordinator.harness.values, row.recipientLookup = lookup →
        row.reference = reference → row.progress = .handedOff := by
      intro row hrow hlookup hreference
      have hne : row.progress ≠ .observed := fun hprogress =>
        hunobserved ⟨row, hrow, hlookup, hreference, hprogress⟩
      revert hne
      unfold HarnessDelivery.progress
      split
      · exact fun hne => absurd rfl hne
      · exact fun _ => rfl
    split
    next hattempted =>
      obtain ⟨row, hrow, hlookup, hreference⟩ := hattempted
      constructor
      · intro hle other hother hlookup' hreference'
        rw [hopen other hother hlookup' hreference']
        exact hle
      · intro hall
        rw [← hopen row hrow hlookup hreference]
        exact hall row hrow hlookup hreference
    next hnone =>
      refine ⟨fun _ row hrow hlookup hreference => ?_, fun _ => HarnessProgress.untouched_le _⟩
      exact absurd ⟨row, hrow, hlookup, hreference⟩ hnone

def AttemptPut (attempt : HarnessDelivery) (coordinator coordinator' : Coordinator) : Prop :=
  ∀ key, coordinator'.harness.get? key =
    if key = attempt.identity then some attempt else coordinator.harness.get? key

/-- A written attempt that proves no less than the one it replaces adds its progress. -/
theorem AttemptPut.progressOf_eq (hput : AttemptPut attempt coordinator coordinator')
    (hgrows : ∀ row, coordinator.harness.get? attempt.identity = some row →
      row.reference = attempt.reference ∧ row.progress ≤ attempt.progress)
    (lookup : ThreadLookup) : coordinator'.progressOf attempt.reference lookup =
      if lookup = attempt.recipientLookup then
        max (coordinator.progressOf attempt.reference lookup) attempt.progress
      else coordinator.progressOf attempt.reference lookup := by
  have hstored : attempt ∈ coordinator'.harness.values :=
    Table.mem_values_of_get? ((hput attempt.identity).trans (if_pos rfl))
  have hother : ∀ {row : HarnessDelivery}, row.identity ≠ attempt.identity →
      (row ∈ coordinator'.harness.values ↔ row ∈ coordinator.harness.values) := by
    intro row hne
    rw [Table.mem_values, Table.mem_values, hput,
      if_neg (show Record.key row ≠ attempt.identity from hne)]
  have hsame : ∀ {row : HarnessDelivery}, row ∈ coordinator'.harness.values →
      row.identity = attempt.identity → row = attempt := by
    intro row hrow hkey
    have hget := Table.mem_values.mp hrow
    rw [hput, if_pos (show Record.key row = attempt.identity from hkey)] at hget
    exact (Option.some.inj hget).symm
  refine eq_of_forall_ge_iff fun progress => ?_
  split
  next hlookup =>
    subst hlookup
    rw [max_le_iff, progressOf_le, progressOf_le]
    constructor
    · intro hall
      refine ⟨fun row hrow hlookup hreference => ?_, hall attempt hstored rfl rfl⟩
      by_cases hkey : row.identity = attempt.identity
      · exact (hgrows row (hkey ▸ Table.mem_values.mp hrow)).2.trans (hall attempt hstored rfl rfl)
      · exact hall row ((hother hkey).mpr hrow) hlookup hreference
    · rintro ⟨hall, hattempt⟩ row hrow hlookup hreference
      by_cases hkey : row.identity = attempt.identity
      · rw [hsame hrow hkey]
        exact hattempt
      · exact hall row ((hother hkey).mp hrow) hlookup hreference
  next hlookup =>
    have hrows : ∀ row, row.recipientLookup = lookup →
        (row ∈ coordinator'.harness.values ↔ row ∈ coordinator.harness.values) := by
      intro row hlookup'
      refine hother fun hkey => hlookup (hlookup'.symm.trans ?_)
      simp only [HarnessDelivery.identity, Prod.mk.injEq] at hkey
      exact hkey.2.1
    rw [progressOf_le, progressOf_le]
    refine forall_congr' fun row => ?_
    exact ⟨fun hall hrow hlookup' => hall ((hrows row hlookup').mpr hrow) hlookup',
      fun hall hrow hlookup' => hall ((hrows row hlookup').mp hrow) hlookup'⟩

/-! ### The claims of a message -/

/-- The claims on a message are the accepted ones, each where its progress puts it. -/
structure Standing (reference : MessageReference) (expected : List WakeAssignment)
    (progress : ThreadLookup → HarnessProgress) (store : Store) : Prop where
  distinct : DistinctClaims store.wakeClaims
  keys : store.ForeignKeys
  stored : ∀ accepted ∈ expected, ∃ claim,
    store.wakeClaims.get? accepted.assignmentId = some claim ∧
      WakeAssignment.SameAcceptance accepted claim ∧
      claim.lifecycle = (progress accepted.recipientLookup).claimState accepted.lifecycle.mode
  source : ∀ accepted ∈ expected, accepted.source = reference
  only : ∀ claim ∈ store.wakeClaims.values, claim.wireSeq = reference.seq →
    ∃ accepted ∈ expected, accepted.assignmentId = claim.assignmentId

theorem Standing.accepted (hstanding : Standing reference expected progress store)
    (hclaim : claim ∈ store.wakeClaims.values) (hseq : claim.wireSeq = reference.seq)
    : ∃ accepted ∈ expected,
      WakeAssignment.SameAcceptance accepted claim ∧
      claim.lifecycle = (progress accepted.recipientLookup).claimState accepted.lifecycle.mode := by
  obtain ⟨accepted, haccepted, hkey⟩ := hstanding.only claim hclaim hseq
  obtain ⟨found, hfound, hacceptance, hlifecycle⟩ := hstanding.stored accepted haccepted
  rw [hkey, show store.wakeClaims.get? claim.assignmentId = some claim from
    Table.mem_values.mp hclaim, Option.some.injEq] at hfound
  subst hfound
  exact ⟨accepted, haccepted, hacceptance, hlifecycle⟩

/-- An attempt of a recipient without a claim moves nothing. -/
theorem Standing.of_absent (hstanding : Standing attempt.reference expected progress store)
    (hnone : store.claimsAt attempt.recipientLookup attempt.seq = []) (reached : HarnessProgress) :
    Standing attempt.reference expected
      (Function.update progress attempt.recipientLookup reached) store := by
  refine { hstanding with stored := ?_ }
  intro accepted haccepted
  obtain ⟨claim, hget, hacceptance, hlifecycle⟩ := hstanding.stored accepted haccepted
  refine ⟨claim, hget, hacceptance, ?_⟩
  rw [Function.update_of_ne, hlifecycle]
  -- its recipient would have a claim on the message
  intro hlookup
  have hmem : claim ∈ store.claimsAt attempt.recipientLookup attempt.seq := by
    refine Store.mem_claimsAt.mpr ⟨hacceptance.1 ▸ hget, hacceptance.2.2.1.trans hlookup, ?_⟩
    exact hacceptance.2.2.2.1.trans
      (congrArg MessageReference.seq (hstanding.source accepted haccepted))
  rw [hnone] at hmem
  cases hmem

/-- A write of one accepted claim moves its recipient. -/
theorem Standing.of_walked {reached : HarnessProgress} {accepted : WakeAssignment}
    (hstanding : Standing reference expected progress store) (haccepted : accepted ∈ expected)
    (hget : store.wakeClaims.get? claim.assignmentId = some claim)
    (hacceptance : WakeAssignment.SameAcceptance accepted claim)
    (hdistinct : DistinctClaims store'.wakeClaims)
    (hwalked : Store.Walked claim (reached.claimState accepted.lifecycle.mode) store store') :
    Standing reference expected (Function.update progress accepted.recipientLookup reached)
      store' := by
  obtain ⟨hsame, later, hlater, hlifecycle', hacceptance'⟩ := hwalked
  have hother : ∀ {k}, k ≠ claim.assignmentId →
      store'.wakeClaims.get? k = store.wakeClaims.get? k := fun hk => hsame.1 _ hk
  refine ⟨hdistinct, ?_, ?_, hstanding.source, ?_⟩
  · rw [hsame.2]
    refine hstanding.keys.of_claims fun found hfound => ?_
    have hget' := Table.mem_values.mp hfound
    by_cases hkey : found.assignmentId = claim.assignmentId
    · rw [show Record.key found = claim.assignmentId from hkey, hlater, Option.some.injEq] at hget'
      rw [← hget', hlifecycle']
      exact .inr (HarnessProgress.engagement?_claimState _ _)
    · exact .inl (Table.mem_values_of_get? ((hother hkey).symm.trans hget'))
  · intro other hother'
    obtain ⟨found, hfound, hacceptance'', hlifecycle''⟩ := hstanding.stored other hother'
    by_cases hkey : other.assignmentId = claim.assignmentId
    · rw [hkey, hget, Option.some.injEq] at hfound
      subst hfound
      have hsameLookup : other.recipientLookup = accepted.recipientLookup :=
        hacceptance''.2.2.1.symm.trans hacceptance.2.2.1
      have hsameMode : other.lifecycle.mode = accepted.lifecycle.mode := by
        rw [← hacceptance''.2.2.2.2.2.2.2.2.2, hacceptance.2.2.2.2.2.2.2.2.2]
      refine ⟨later, hkey ▸ hlater, hacceptance''.trans hacceptance', ?_⟩
      rw [hlifecycle', hsameLookup, hsameMode, Function.update_self]
    · refine ⟨found, (hother hkey).trans hfound, hacceptance'', ?_⟩
      rw [Function.update_of_ne, hlifecycle'']
      -- one claim per recipient and message
      intro hlookup'
      refine hkey (hstanding.distinct hfound hget ?_ ?_)
      · rw [hacceptance''.2.2.1, hlookup', hacceptance.2.2.1]
      · rw [hacceptance''.2.2.2.1, hacceptance.2.2.2.1]
        exact congrArg MessageReference.seq
          ((hstanding.source other hother').trans (hstanding.source accepted haccepted).symm)
  · intro found hfound hseq'
    have hget' := Table.mem_values.mp hfound
    by_cases hkey : found.assignmentId = claim.assignmentId
    · exact ⟨accepted, haccepted, hacceptance.1.symm.trans hkey.symm⟩
    · exact hstanding.only found (Table.mem_values_of_get? ((hother hkey).symm.trans hget')) hseq'

/-- Settling an attempt adds its progress to the claim of its recipient, and leaves every
other claim. -/
theorem Standing.settles (hstanding : Standing attempt.reference expected progress store)
    (readings : Readings) :
    ∃ store', settleClaims readings store attempt = .ok store' ∧
      Standing attempt.reference expected (Function.update progress attempt.recipientLookup
        (max (progress attempt.recipientLookup) attempt.progress)) store' ∧
      store' = { store with wakeClaims := store'.wakeClaims } ∧
      (expected = [] → store' = store) ∧
      ∀ k, (∀ accepted ∈ expected, accepted.assignmentId ≠ k) →
        store'.wakeClaims.get? k = store.wakeClaims.get? k := by
  rcases Store.claimsAt_cases hstanding.distinct attempt.recipientLookup attempt.seq with
    hnone | ⟨claim, hclaim⟩
  · exact ⟨store, settleClaims_absent readings hnone, hstanding.of_absent hnone _, rfl,
      fun _ => rfl, fun _ _ => rfl⟩
  · obtain ⟨hget, hlookup, hseq⟩ := Store.mem_claimsAt.mp (hclaim ▸ List.mem_singleton_self claim)
    obtain ⟨accepted, haccepted, hacceptance, hlifecycle⟩ :=
      hstanding.accepted (Table.mem_values_of_get? hget) hseq
    have hrecipient : accepted.recipientLookup = attempt.recipientLookup :=
      hacceptance.2.2.1.symm.trans hlookup
    have hsource : claim.source = attempt.reference := by
      rw [← hstanding.source accepted haccepted, WakeAssignment.source, WakeAssignment.source,
        hacceptance.2.2.2.1, hacceptance.2.2.2.2.1]
    obtain ⟨store', hsettle, hwalked⟩ :=
      settleClaims_standing readings hstanding.distinct hget hlookup hsource hlifecycle
    have hdistinct : DistinctClaims store'.wakeClaims :=
      (ClaimsEvolve.of_writes (settleClaims_writes hsettle)).distinct hstanding.distinct
    have hsettled := hstanding.of_walked haccepted hget hacceptance hdistinct hwalked
    rw [hrecipient] at hsettled
    refine ⟨store', hsettle, hsettled, hwalked.1.2, ?_, fun k hk => hwalked.1.1 k ?_⟩
    · rintro rfl
      cases haccepted
    · rw [hacceptance.1]
      exact (hk accepted haccepted).symm

end Coordinator

end AgentComms.Coordination
