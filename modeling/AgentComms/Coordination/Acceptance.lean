import AgentComms.Coordination.Attempts

/-!
# The acceptance of a committed delivery

A delivery the bus committed is accepted in one transaction, whatever its recipients and
decisions and whatever the bridges already did with it.
-/

namespace AgentComms.Coordination

open Library Relation

namespace Delivered

variable {member : FrozenRecipient × RecipientDecision} {accepted : WakeAssignment}

def claims (initial : Delivered) (identify : Identify) (acceptedAt : Time) :
    List WakeAssignment :=
  initial.recipients.filterMap (initial.claimOf identify acceptedAt)

/-- What publication established for a committed delivery, and its claims' digests. -/
structure Committed (initial : Delivered) (identify : Identify) : Prop where
  seq : 0 < initial.reference.seq
  message : boundedText initial.reference.messageId = true
  target : boundedText initial.exactReplyTarget = true
  count : initial.recipients.length ≤ 4096
  lookups : (initial.recipients.map (·.1.recipientLookup)).Nodup
  names : (initial.recipients.map (·.1.canonicalThread)).Nodup
  texts : ∀ member ∈ initial.recipients,
    boundedText member.1.recipientLookup = true ∧ boundedText member.1.canonicalThread = true
  decided : ∀ member ∈ initial.recipients, member.1.recipientLookup = member.2.recipient
  identified : ∀ member ∈ initial.recipients,
    boundedText (identify member.1.recipientLookup) = true
  distinct : ∀ member ∈ initial.recipients, ∀ other ∈ initial.recipients,
    identify member.1.recipientLookup = identify other.1.recipientLookup →
      member.1.recipientLookup = other.1.recipientLookup

variable {initial : Delivered} {identify : Identify} {acceptedAt : Time}

theorem expectedAssignments_eq (hcommitted : initial.Committed identify) (acceptedAt : Time) :
    initial.expectedAssignments identify acceptedAt =
      .ok (initial.claims identify acceptedAt) := by
  refine map_eq_ok.mpr ⟨initial.recipients.map fun member =>
    (initial.claimOf identify acceptedAt member).toList, ?_, ?_⟩
  · rw [mapM_eq_ok, List.forall₂_map_right_iff, List.forall₂_same]
    intro member hmember
    simp only [expectedFor, do_eq_ok, exists_const, and_true]
    exact hcommitted.decided member hmember
  · rw [claims, List.filterMap_eq_flatMap_toList]
    rfl

structure Claims (initial : Delivered) (identify : Identify)
    (acceptedAt : Time) (member : FrozenRecipient × RecipientDecision)
    (accepted : WakeAssignment) : Prop where
  decided : ∃ audience mode, member.2 = .wake accepted.recipientLookup audience mode ∧
    accepted.lifecycle = mode.initialState
  identity : accepted.assignmentId = identify accepted.recipientLookup
  recipient : accepted.recipient = member.1.canonicalThread
  source : accepted.source = initial.reference
  acceptedAt : accepted.acceptedAt = acceptedAt ∧ accepted.updatedAt = acceptedAt
  revision : accepted.revision = 1
  versions : accepted.resolverVersion = Coordination.resolverVersion ∧
    accepted.policyVersion = Coordination.policyVersion

theorem claims_of_claimOf (hclaim : initial.claimOf identify acceptedAt member = some accepted) :
    initial.Claims identify acceptedAt member accepted := by
  unfold claimOf at hclaim
  split at hclaim
  · cases hclaim
  next lookup audience mode hdecision =>
    obtain rfl := Option.some.inj hclaim
    exact ⟨⟨audience, mode, hdecision, rfl⟩, rfl, rfl, rfl, ⟨rfl, rfl⟩, rfl, rfl, rfl⟩

theorem mem_claims :
    accepted ∈ initial.claims identify acceptedAt ↔
      ∃ member ∈ initial.recipients, initial.claimOf identify acceptedAt member = some accepted :=
  List.mem_filterMap

theorem claims_of_mem (haccepted : accepted ∈ initial.claims identify acceptedAt) :
    ∃ member ∈ initial.recipients, initial.Claims identify acceptedAt member accepted := by
  obtain ⟨member, hmember, hclaim⟩ := mem_claims.mp haccepted
  exact ⟨member, hmember, claims_of_claimOf hclaim⟩

theorem mode_initialState (mode : WakePolicy) : mode.initialState.mode = mode := by
  rcases mode with _ | _ | _ <;> rfl

section

variable (hclaims : initial.Claims identify acceptedAt member accepted)
include hclaims

theorem Claims.lifecycle_eq :
    accepted.lifecycle =
      HarnessProgress.untouched.claimState accepted.lifecycle.mode := by
  obtain ⟨audience, mode, -, hlifecycle⟩ := hclaims.decided
  rw [hlifecycle, mode_initialState]
  rcases mode with _ | _ | _ <;> rfl

theorem Claims.unbound : accepted.lifecycle.engagement? = none := by
  rw [hclaims.lifecycle_eq]
  exact HarnessProgress.engagement?_claimState _ _

theorem Claims.wakes : member.2.claims = true := by
  obtain ⟨_, _, hdecision, -⟩ := hclaims.decided
  rw [hdecision]
  rfl

end

variable (hcommitted : initial.Committed identify)
include hcommitted

theorem Claims.recipientLookup_eq (hmember : member ∈ initial.recipients)
    (hclaims : initial.Claims identify acceptedAt member accepted) :
    accepted.recipientLookup = member.1.recipientLookup := by
  obtain ⟨audience, mode, hdecision, -⟩ := hclaims.decided
  rw [hcommitted.decided member hmember, hdecision]
  rfl

theorem Claims.valid (hmember : member ∈ initial.recipients)
    (hclaims : initial.Claims identify acceptedAt member accepted) : Record.Valid accepted := by
  obtain ⟨hlookup, hname⟩ := hcommitted.texts member hmember
  have hunbound := hclaims.unbound
  have hseq : accepted.wireSeq = initial.reference.seq :=
    congrArg MessageReference.seq hclaims.source
  have hmessage : accepted.messageId = initial.reference.messageId :=
    congrArg MessageReference.messageId hclaims.source
  refine ⟨?_, ?_, ?_, ?_, ?_, ?_, ?_, ?_, ?_, ?_, ?_⟩
  · rw [hclaims.identity, hclaims.recipientLookup_eq hcommitted hmember]
    exact hcommitted.identified member hmember
  · rw [hclaims.recipient]
    exact hname
  · rw [hclaims.recipientLookup_eq hcommitted hmember]
    exact hlookup
  · rw [hmessage]
    exact hcommitted.message
  · rw [hclaims.versions.1]
    decide
  · rw [hclaims.versions.2]
    decide
  · rw [AssignmentState.exactTarget, hunbound]
    rfl
  · rw [AssignmentState.executionId, hunbound]
    rfl
  · rw [hseq]
    exact hcommitted.seq
  · rw [hclaims.revision]
    exact Nat.one_pos
  · rw [hclaims.acceptedAt.1, hclaims.acceptedAt.2]

theorem claims_pairwise :
    (initial.claims identify acceptedAt).Pairwise fun one other =>
      one.recipientLookup ≠ other.recipientLookup := by
  have hmembers : initial.recipients.Pairwise fun one other =>
      one.1.recipientLookup ≠ other.1.recipientLookup := List.pairwise_map.mp hcommitted.lookups
  have hdecided : initial.recipients.Pairwise fun one other =>
      one.2.recipient ≠ other.2.recipient := by
    refine hmembers.imp_of_mem fun {one other} hone hother hne => ?_
    rwa [← hcommitted.decided one hone, ← hcommitted.decided other hother]
  refine hdecided.filterMap _ fun one other hne accepted haccepted accepted' haccepted' => ?_
  obtain ⟨_, _, hone, -⟩ := (claims_of_claimOf haccepted).decided
  obtain ⟨_, _, hother, -⟩ := (claims_of_claimOf haccepted').decided
  rw [hone, hother] at hne
  exact hne

theorem claims_ids_pairwise :
    (initial.claims identify acceptedAt).Pairwise fun one other =>
      one.assignmentId ≠ other.assignmentId := by
  refine (claims_pairwise hcommitted).imp_of_mem fun {one other} hone hother hne hid => hne ?_
  obtain ⟨member, hmember, hclaim⟩ := claims_of_mem hone
  obtain ⟨member', hmember', hclaim'⟩ := claims_of_mem hother
  rw [hclaim.identity, hclaim'.identity] at hid
  rw [hclaim.recipientLookup_eq hcommitted hmember,
    hclaim'.recipientLookup_eq hcommitted hmember'] at hid ⊢
  exact hcommitted.distinct member hmember member' hmember' hid

end Delivered

/-! ### The claims are stored -/

namespace Store

variable {store : Store}

structure ClaimsInserted (claims : List WakeAssignment) (store created : Store) : Prop where
  frame : created = { store with wakeClaims := created.wakeClaims }
  stored : ∀ claim ∈ claims, created.wakeClaims.get? claim.assignmentId = some claim
  kept : ∀ {k claim}, store.wakeClaims.get? k = some claim →
    created.wakeClaims.get? k = some claim
  origin : ∀ {k claim}, created.wakeClaims.get? k = some claim →
    store.wakeClaims.get? k = some claim ∨ claim ∈ claims

/-- Claims of distinct recipients on a message nobody has a claim on are all stored. -/
theorem insertWakeClaims_ok {claims : List WakeAssignment}
    (hvalid : ∀ claim ∈ claims, Record.Valid claim ∧ claim.lifecycle.executionId = none ∧
      (store.participants.get? claim.recipientLookup).isSome = true)
    (hids : claims.Pairwise fun one other => one.assignmentId ≠ other.assignmentId)
    (hlookups : claims.Pairwise fun one other => one.recipientLookup ≠ other.recipientLookup)
    (hfree : ∀ claim ∈ claims, store.wakeClaims.get? claim.assignmentId = none ∧
      ∀ other ∈ store.wakeClaims.values,
        ¬ (other.recipientLookup = claim.recipientLookup ∧ other.wireSeq = claim.wireSeq)) :
    ∃ created, claims.foldlM insertWakeClaim store = .ok created ∧
      ClaimsInserted claims store created := by
  induction claims generalizing store with
  | nil => exact ⟨store, rfl, rfl, nofun, id, .inl⟩
  | cons claim claims ih =>
    obtain ⟨hrow, hunbound, hparticipant⟩ := hvalid claim List.mem_cons_self
    obtain ⟨habsent, hother⟩ := hfree claim List.mem_cons_self
    have hinsert : store.insertWakeClaim claim =
        .ok { store with wakeClaims := store.wakeClaims.put claim hrow } := by
      simp only [insertWakeClaim, do_eq_ok, accepted_eq_ok, exists_const]
      refine ⟨⟨hparticipant, by rw [hunbound]; rfl, List.all_eq_true.mpr fun other hmem => ?_⟩, _,
        Table.insert?_eq_some hrow habsent, rfl⟩
      simpa only [Bool.not_eq_true', Bool.and_eq_false_iff, beq_eq_false_iff_ne, not_and_or]
        using hother other hmem
    obtain ⟨hid, hids⟩ := List.pairwise_cons.mp hids
    obtain ⟨hlookup, hlookups⟩ := List.pairwise_cons.mp hlookups
    have hget : ∀ k, (store.wakeClaims.put claim hrow).get? k =
        if k = claim.assignmentId then some claim else store.wakeClaims.get? k :=
      Table.get?_put store.wakeClaims claim hrow
    have hfree' : ∀ other ∈ claims,
        (store.wakeClaims.put claim hrow).get? other.assignmentId = none ∧
        ∀ stored ∈ (store.wakeClaims.put claim hrow).values,
          ¬ (stored.recipientLookup = other.recipientLookup ∧
            stored.wireSeq = other.wireSeq) := by
      intro other hmem
      obtain ⟨hnone, hnone'⟩ := hfree other (List.mem_cons_of_mem _ hmem)
      refine ⟨?_, fun stored hstored hsame => ?_⟩
      · rw [hget, if_neg (hid other hmem).symm]
        exact hnone
      · have hstored' := Table.mem_values.mp hstored
        rw [hget] at hstored'
        split at hstored'
        · rw [← Option.some.inj hstored'] at hsame
          exact hlookup other hmem hsame.1
        · exact hnone' stored (Table.mem_values_of_get? hstored') hsame
    obtain ⟨created, hcreated, hinserted⟩ := @ih
      { store with wakeClaims := store.wakeClaims.put claim hrow }
      (fun other hmem => hvalid other (List.mem_cons_of_mem _ hmem)) hids hlookups hfree'
    refine ⟨created, ?_, hinserted.frame, ?_, ?_, ?_⟩
    · rw [List.foldlM_cons, bind_eq_ok]
      exact ⟨_, hinsert, hcreated⟩
    · intro other hmem
      rcases List.mem_cons.mp hmem with rfl | hmem
      · exact hinserted.kept ((hget _).trans (if_pos rfl))
      · exact hinserted.stored other hmem
    · intro k stored hstored
      refine hinserted.kept ((hget k).trans ((if_neg ?_).trans hstored))
      rintro rfl
      rw [habsent] at hstored
      cases hstored
    · intro k stored hstored
      rcases hinserted.origin hstored with hstored | hmem
      · rw [hget] at hstored
        split at hstored
        · exact .inr (Option.some.inj hstored ▸ List.mem_cons_self)
        · exact .inl hstored
      · exact .inr (List.mem_cons_of_mem _ hmem)

structure Accepts (store : Store) (identify : Identify) (initial : Delivered) :
    Prop where
  claims : ∀ claim ∈ store.wakeClaims.values, claim.wireSeq ≠ initial.reference.seq
  identities : ∀ member ∈ initial.recipients, member.2.claims = true →
    store.wakeClaims.get? (identify member.1.recipientLookup) = none
  participants : ∀ member ∈ initial.recipients,
    (store.participants.get? member.1.recipientLookup).isSome = true

end Store

/-! ### The acceptance -/

theorem forall₂_of_forall_exists {α β : Type} {R : α → β → Prop} {items : List α}
    (hitems : ∀ item ∈ items, ∃ value, R item value) : ∃ values, List.Forall₂ R items values := by
  induction items with
  | nil => exact ⟨[], .nil⟩
  | cons item items ih =>
    obtain ⟨value, hvalue⟩ := hitems item List.mem_cons_self
    obtain ⟨values, hvalues⟩ := ih fun other hother => hitems other (List.mem_cons_of_mem _ hother)
    exact ⟨value :: values, .cons hvalue hvalues⟩

namespace Coordinator

variable {coordinator : Coordinator} {initial : Delivered}
  {identify : Identify} {wireRootId : String} {store : Store}
  {reference : MessageReference} {expected : List WakeAssignment}
  {progress : ThreadLookup → HarnessProgress} {acceptedAt : Time}

/-- Nothing of the message is accepted, and its recipients can be. -/
structure Unaccepted (coordinator : Coordinator) (identify : Identify)
    (initial : Delivered) : Prop where
  claims : ∀ claim ∈ coordinator.store.wakeClaims.values, claim.wireSeq ≠ initial.reference.seq
  receipts : ∀ receipt ∈ coordinator.receipts.values, receipt.wireSeq ≠ initial.reference.seq
  identities : ∀ member ∈ initial.recipients,
    coordinator.store.wakeClaims.get? (identify member.1.recipientLookup) = none
  participants : ∀ member ∈ initial.recipients,
    (coordinator.store.participants.get? member.1.recipientLookup).isSome = true

theorem Unaccepted.accepts (hunaccepted : coordinator.Unaccepted identify initial) :
    coordinator.store.Accepts identify initial :=
  ⟨hunaccepted.claims, fun member hmember _ => hunaccepted.identities member hmember,
    hunaccepted.participants⟩

theorem Unaccepted.receipt_none (hunaccepted : coordinator.Unaccepted identify initial)
    (wireRootId : String) :
    coordinator.receipts.get? (wireRootId, initial.reference.seq) = none := by
  cases hget : coordinator.receipts.get? (wireRootId, initial.reference.seq) with
  | none => rfl
  | some receipt =>
    refine absurd ?_ (hunaccepted.receipts receipt (Table.mem_values_of_get? hget))
    exact congrArg Prod.snd (coordinator.receipts.keyed _ _ hget)

/-- The new claims stand where nobody touched them. -/
theorem standing_of_inserts (hcommitted : initial.Committed identify)
    (hdistinct : DistinctClaims store.wakeClaims) (hkeys : store.ForeignKeys)
    (haccepts : store.Accepts identify initial) (acceptedAt : Time) :
    ∃ created,
      (initial.claims identify acceptedAt).foldlM Store.insertWakeClaim store = .ok created ∧
      Store.ClaimsInserted (initial.claims identify acceptedAt) store created ∧
      Standing initial.reference (initial.claims identify acceptedAt)
        (fun _ => .untouched) created := by
  have hseq : ∀ accepted ∈ initial.claims identify acceptedAt,
      accepted.wireSeq = initial.reference.seq := by
    intro accepted haccepted
    obtain ⟨member, -, hclaim⟩ := Delivered.claims_of_mem haccepted
    exact congrArg MessageReference.seq hclaim.source
  have hrows : ∀ accepted ∈ initial.claims identify acceptedAt, Record.Valid accepted ∧
      accepted.lifecycle.executionId = none ∧
      (store.participants.get? accepted.recipientLookup).isSome = true := by
    intro accepted haccepted
    obtain ⟨member, hmember, hclaim⟩ := Delivered.claims_of_mem haccepted
    refine ⟨hclaim.valid hcommitted hmember, ?_, ?_⟩
    · rw [AssignmentState.executionId, hclaim.unbound]
      rfl
    · rw [hclaim.recipientLookup_eq hcommitted hmember]
      exact haccepts.participants member hmember
  have hfree : ∀ accepted ∈ initial.claims identify acceptedAt,
      store.wakeClaims.get? accepted.assignmentId = none ∧
      ∀ other ∈ store.wakeClaims.values, ¬ (other.recipientLookup = accepted.recipientLookup ∧
        other.wireSeq = accepted.wireSeq) := by
    intro accepted haccepted
    obtain ⟨member, hmember, hclaim⟩ := Delivered.claims_of_mem haccepted
    refine ⟨?_, fun other hother hsame => haccepts.claims other hother ?_⟩
    · rw [hclaim.identity, hclaim.recipientLookup_eq hcommitted hmember]
      exact haccepts.identities member hmember hclaim.wakes
    · rw [hsame.2, hseq accepted haccepted]
  obtain ⟨created, hcreated, hinserted⟩ := Store.insertWakeClaims_ok hrows
    (Delivered.claims_ids_pairwise hcommitted) (Delivered.claims_pairwise hcommitted) hfree
  have hdistinct' : DistinctClaims created.wakeClaims :=
    foldlM_invariant (fun store => DistinctClaims store.wakeClaims)
      (fun _ _ _ _ hbefore hinsert =>
        (ClaimsEvolve.of_writes (Store.insertWakeClaim_writes hinsert)).distinct hbefore)
      hdistinct hcreated
  refine ⟨created, hcreated, hinserted, hdistinct', ?_, ?_, ?_, ?_⟩
  · rw [hinserted.frame]
    refine hkeys.of_claims fun claim hclaim => ?_
    rcases hinserted.origin (Table.mem_values.mp hclaim) with hstored | hnew
    · exact .inl (Table.mem_values_of_get? hstored)
    · obtain ⟨_, -, hclaim⟩ := Delivered.claims_of_mem hnew
      exact .inr hclaim.unbound
  · intro accepted haccepted
    obtain ⟨_, -, hclaim⟩ := Delivered.claims_of_mem haccepted
    exact ⟨accepted, hinserted.stored accepted haccepted, .refl accepted, hclaim.lifecycle_eq⟩
  · intro accepted haccepted
    obtain ⟨_, -, hclaim⟩ := Delivered.claims_of_mem haccepted
    exact hclaim.source
  · intro claim hclaim hseq'
    rcases hinserted.origin (Table.mem_values.mp hclaim) with hstored | hnew
    · exact absurd hseq' (haccepts.claims claim (Table.mem_values_of_get? hstored))
    · exact ⟨claim, hnew, rfl⟩

/-- The attempts settled in one loop add their progress, in whatever order. -/
theorem standing_of_settles (readings : Readings) {attempts : List HarnessDelivery}
    (hattempts : ∀ attempt ∈ attempts, attempt.reference = reference)
    (hstanding : Standing reference expected progress store) :
    ∃ settled reached, attempts.foldlM (settleClaims readings) store = .ok settled ∧
      settled = { store with wakeClaims := settled.wakeClaims } ∧
      (∀ k, (∀ accepted ∈ expected, accepted.assignmentId ≠ k) →
        settled.wakeClaims.get? k = store.wakeClaims.get? k) ∧
      Standing reference expected reached settled ∧
      ∀ lookup bound, reached lookup ≤ bound ↔ progress lookup ≤ bound ∧
        ∀ attempt ∈ attempts, attempt.recipientLookup = lookup → attempt.progress ≤ bound := by
  induction attempts generalizing store progress with
  | nil => exact ⟨store, progress, rfl, rfl, fun _ _ => rfl, hstanding, by simp⟩
  | cons attempt attempts ih =>
    have hreference := hattempts attempt List.mem_cons_self
    have hfirst : Standing attempt.reference expected progress store := hreference ▸ hstanding
    obtain ⟨middle, hsettle, hmiddle, hframe, -, hother⟩ := hfirst.settles readings
    obtain ⟨settled, reached, hrest, hframe', hother', hsettled, hreached⟩ :=
      ih (fun other hother => hattempts other (List.mem_cons_of_mem _ hother))
        (hreference ▸ hmiddle)
    refine ⟨settled, reached, ?_, ?_, fun k hk => ?_, hsettled, fun lookup bound => ?_⟩
    · rw [List.foldlM_cons, bind_eq_ok]
      exact ⟨middle, hsettle, hrest⟩
    · rw [hframe', hframe]
    · rw [hother' k hk, hother k hk]
    · rw [hreached, List.forall_mem_cons]
      by_cases hlookup : lookup = attempt.recipientLookup
      · subst hlookup
        rw [Function.update_self, max_le_iff, and_assoc]
        simp
      · rw [Function.update_of_ne hlookup]
        simp [Ne.symm hlookup]

open CohortReceipt (forDelivery)

/-- The sealed cohort of the delivery, with its claims wherever they stand. -/
structure Accepted (coordinator : Coordinator) (identify : Identify)
    (wireRootId : String) (initial : Delivered) (acceptedAt : Time) : Prop where
  receipt : coordinator.receipts.get? (wireRootId, initial.reference.seq) =
    some (forDelivery wireRootId initial acceptedAt
      (initial.claims identify acceptedAt))
  claims : ∀ accepted ∈ initial.claims identify acceptedAt, ∃ claim,
    coordinator.store.wakeClaims.get? accepted.assignmentId = some claim ∧
      WakeAssignment.SameAcceptance accepted claim
  only : ∀ claim ∈ coordinator.store.wakeClaims.values,
    claim.wireSeq = initial.reference.seq → ∀ member ∈ initial.recipients,
      member.1.recipientLookup = claim.recipientLookup → member.2.claims = true

theorem requireSameAcceptance_ok {accepted claim : WakeAssignment}
    (hsame : WakeAssignment.SameAcceptance accepted claim) :
    accepted.requireSameAcceptance claim = .ok () := by
  obtain ⟨h₁, h₂, h₃, h₄, h₅, h₆, h₇, h₈, h₉, hmode⟩ := hsame
  obtain ⟨_, _, _, _, _, _, _, _, _, _, _, _⟩ := accepted
  obtain ⟨_, _, _, _, _, _, _, _, _, _, _, _⟩ := claim
  rw [WakeAssignment.requireSameAcceptance, require_eq_ok]
  simp_all

variable (hcommitted : initial.Committed identify)
include hcommitted

/-- The sealed cohort is read back whatever became of its claims. -/
theorem Accepted.claimRecord_ok
    (haccepted : coordinator.Accepted identify wireRootId initial acceptedAt) :
    ∃ current, coordinator.claimRecord identify wireRootId initial =
        .ok ⟨wireRootId, initial.reference.seq, initial.reference.messageId,
          initial.recipients.length, (initial.claims identify acceptedAt).length, acceptedAt,
          current⟩ ∧
      List.Forall₂ (fun accepted claim : WakeAssignment =>
        coordinator.store.wakeClaims.get? accepted.assignmentId = some claim ∧
          WakeAssignment.SameAcceptance accepted claim)
        (initial.claims identify acceptedAt) current := by
  obtain ⟨current, hcurrent⟩ := forall₂_of_forall_exists haccepted.claims
  refine ⟨current, ?_, hcurrent⟩
  simp only [claimRecord, do_eq_ok, exists_const]
  refine ⟨_, haccepted.receipt, rfl, _, Delivered.expectedAssignments_eq hcommitted acceptedAt,
    rfl, rfl, current, mapM_eq_ok.mpr (hcurrent.imp fun accepted claim hclaim => ?_), ?_, rfl⟩
  · -- each claim is read back as it is now
    simp only [do_eq_ok]
    exact ⟨claim, hclaim.1, (), requireSameAcceptance_ok hclaim.2, rfl⟩
  · intro member hmember
    by_cases hclaims : member.2.claims = true
    · exact .inl hclaims
    · refine .inr (List.eq_nil_iff_forall_not_mem.mpr fun claim hclaim => hclaims ?_)
      obtain ⟨hget, hlookup, hseq⟩ := Store.mem_claimsAt.mp hclaim
      exact haccepted.only claim (Table.mem_values_of_get? hget) hseq member hmember hlookup.symm

/-- Only a recipient the delivery wakes has a claim on its message. -/
theorem Standing.wakes
    (hstanding : Standing initial.reference (initial.claims identify acceptedAt) progress store)
    {claim : WakeAssignment} (hclaim : claim ∈ store.wakeClaims.values)
    (hseq : claim.wireSeq = initial.reference.seq) {member : FrozenRecipient × RecipientDecision}
    (hmember : member ∈ initial.recipients)
    (hlookup : member.1.recipientLookup = claim.recipientLookup) : member.2.claims = true := by
  obtain ⟨accepted, hmem, hsame, -⟩ := hstanding.accepted hclaim hseq
  obtain ⟨other, hother, hclaims⟩ := Delivered.claims_of_mem hmem
  have hlookup' : other.1.recipientLookup = member.1.recipientLookup := by
    rw [← hclaims.recipientLookup_eq hcommitted hother, hlookup, hsame.2.2.1]
  obtain rfl := List.inj_on_of_nodup_map hcommitted.lookups hother hmember hlookup'
  exact hclaims.wakes

/-- The claims of a message that stand where their progress puts them are accepted. -/
theorem Standing.accepted_of_receipt
    (hstanding : Standing initial.reference (initial.claims identify acceptedAt) progress
      coordinator.store) (hreceipt : coordinator.receipts.get? (wireRootId, initial.reference.seq) =
      some (forDelivery wireRootId initial acceptedAt
        (initial.claims identify acceptedAt))) :
    coordinator.Accepted identify wireRootId initial acceptedAt := by
  refine ⟨hreceipt, ?_, ?_⟩
  · intro accepted hmem
    obtain ⟨claim, hget, hsame, -⟩ := hstanding.stored accepted hmem
    exact ⟨claim, hget, hsame⟩
  · intro claim hclaim hseq member hmember hlookup
    exact hstanding.wakes hcommitted hclaim hseq hmember hlookup

/-- The receipt of a committed delivery passes its constraints. -/
theorem valid_forDelivery (wireRootId : String)
    (acceptedAt : Time) : Record.Valid (forDelivery wireRootId initial acceptedAt
      (initial.claims identify acceptedAt)) := by
  refine ⟨hcommitted.seq, hcommitted.target, ?_, ?_, ?_, ?_, ?_, ?_⟩
  · simp only [forDelivery, List.length_map]
    exact hcommitted.count
  · simp only [forDelivery, List.map_map]
    exact List.pairwise_map.mpr (Delivered.claims_ids_pairwise hcommitted)
  · simp only [forDelivery, List.map_map]
    exact List.pairwise_map.mpr (Delivered.claims_pairwise hcommitted)
  · simp only [forDelivery, List.map_map]
    exact hcommitted.lookups
  · simp only [forDelivery, List.map_map]
    exact hcommitted.names
  · intro delivery hdelivery
    obtain ⟨member, hmember, rfl⟩ := List.mem_map.mp hdelivery
    exact (hcommitted.texts member hmember).2

omit hcommitted in
theorem Standing.congr {progress' : ThreadLookup → HarnessProgress}
    (hstanding : Standing reference expected progress store) (heq : ∀ accepted ∈ expected,
      progress' accepted.recipientLookup = progress accepted.recipientLookup) :
    Standing reference expected progress' store := by
  refine { hstanding with stored := fun accepted hmem => ?_ }
  obtain ⟨claim, hget, hsame, hlifecycle⟩ := hstanding.stored accepted hmem
  exact ⟨claim, hget, hsame, by rw [hlifecycle, heq accepted hmem]⟩

omit hcommitted in
/-- The acceptance reads every attempt on the message for its claims. -/
theorem mem_attemptsFor {attempt : HarnessDelivery} :
    attempt ∈ coordinator.attemptsFor initial expected ↔
      attempt ∈ coordinator.harness.values ∧ attempt.reference = initial.reference ∧
        ∃ claim ∈ expected, claim.recipientLookup = attempt.recipientLookup := by
  rw [attemptsFor, Table.mem_selectBy, Table.mem_values, Bool.and_eq_true, beq_iff_eq,
    List.any_eq_true]
  simp only [beq_iff_eq]

/-- The writes of an acceptance: its claims, inserted and then settled by the attempts already
stored. -/
structure Settling (identify : Identify) (initial : Delivered)
    (acceptedAt : Time) (readings : Readings) (coordinator : Coordinator)
    (created settled : Store) : Prop where
  inserts : (initial.claims identify acceptedAt).foldlM Store.insertWakeClaim coordinator.store =
    .ok created
  inserted : Store.ClaimsInserted (initial.claims identify acceptedAt) coordinator.store created
  settles : (coordinator.attemptsFor initial (initial.claims identify acceptedAt)).foldlM
    (settleClaims readings) created = .ok settled
  frame : settled = { coordinator.store with wakeClaims := settled.wakeClaims }
  others : ∀ k, (∀ accepted ∈ initial.claims identify acceptedAt, accepted.assignmentId ≠ k) →
    settled.wakeClaims.get? k = created.wakeClaims.get? k
  standing : Standing initial.reference (initial.claims identify acceptedAt)
    (coordinator.progressOf initial.reference) settled

theorem settling_of_accepts (hdistinct : DistinctClaims coordinator.store.wakeClaims)
    (hkeys : coordinator.store.ForeignKeys)
    (haccepts : coordinator.store.Accepts identify initial) (readings : Readings)
    (acceptedAt : Time) :
    ∃ created settled,
      Settling identify initial acceptedAt readings coordinator created settled := by
  obtain ⟨created, hcreated, hinserted, hnew⟩ :=
    standing_of_inserts hcommitted hdistinct hkeys haccepts acceptedAt
  have hattempts : ∀ attempt ∈ coordinator.attemptsFor initial (initial.claims identify acceptedAt),
      attempt.reference = initial.reference := fun _ hattempt => (mem_attemptsFor.mp hattempt).2.1
  obtain ⟨settled, reached, hsettled, hframe, hothers, hreached, hprogress⟩ :=
    standing_of_settles readings hattempts hnew
  refine ⟨created, settled, hcreated, hinserted, hsettled, ?_, hothers, ?_⟩
  · rw [hframe, hinserted.frame]
  · refine hreached.congr fun accepted haccepted => eq_of_forall_ge_iff fun bound => ?_
    rw [progressOf_le, hprogress]
    constructor
    · intro hall
      refine ⟨HarnessProgress.untouched_le _, fun attempt hattempt hlookup => ?_⟩
      obtain ⟨hrow, hreference, -⟩ := mem_attemptsFor.mp hattempt
      exact hall attempt hrow hlookup hreference
    · rintro ⟨-, hall⟩ row hrow hlookup hreference
      exact hall row (mem_attemptsFor.mpr ⟨hrow, hreference, accepted, haccepted, hlookup.symm⟩)
        hlookup

structure NewlyAccepted (identify : Identify) (wireRootId : String)
    (initial : Delivered) (acceptedAt : Time) (coordinator coordinator' : Coordinator) : Prop where
  standing : Standing initial.reference (initial.claims identify acceptedAt)
    (coordinator.progressOf initial.reference) coordinator'.store
  receipts : ∀ key, coordinator'.receipts.get? key =
    if key = (wireRootId, initial.reference.seq) then
      some (forDelivery wireRootId initial acceptedAt
        (initial.claims identify acceptedAt))
    else coordinator.receipts.get? key
  frame : coordinator' = { coordinator with
    store := { coordinator.store with wakeClaims := coordinator'.store.wakeClaims }
    receipts := coordinator'.receipts }

/-- A delivery nothing of which is accepted is accepted, and its claims stand where the
attempts already stored put them. -/
theorem recordNewCohort_ok (hdistinct : DistinctClaims coordinator.store.wakeClaims)
    (hkeys : coordinator.store.ForeignKeys) (hunaccepted : coordinator.Unaccepted identify initial)
    (clock : Clock) (readings : Readings) (wireRootId : String) :
    ∃ coordinator' accepted, recordNewCohort clock readings identify wireRootId initial
        coordinator = .ok (coordinator', .applied accepted) ∧
      NewlyAccepted identify wireRootId initial (clock.now .created 0) coordinator
        coordinator' := by
  generalize hnow : clock.now .created 0 = acceptedAt
  obtain ⟨created, settled, hsettling⟩ :=
    settling_of_accepts hcommitted hdistinct hkeys hunaccepted.accepts readings acceptedAt
  have hvalid := valid_forDelivery hcommitted wireRootId acceptedAt
  have hinsert := Table.insert?_eq_some hvalid (hunaccepted.receipt_none wireRootId)
  have hreceipts := Table.get?_put coordinator.receipts _ hvalid
  let sealed : Coordinator := { coordinator with
    store := settled
    receipts := coordinator.receipts.put _ hvalid }
  have haccepted : sealed.Accepted identify wireRootId initial acceptedAt :=
    Standing.accepted_of_receipt hcommitted hsettling.standing ((hreceipts _).trans (if_pos rfl))
  obtain ⟨current, hrecord, -⟩ := haccepted.claimRecord_ok hcommitted
  refine ⟨sealed, ⟨wireRootId, initial.reference.seq, initial.reference.messageId,
    initial.recipients.length, (initial.claims identify acceptedAt).length, acceptedAt, current⟩,
    ?_, hsettling.standing, hreceipts, ?_⟩
  · simp only [recordNewCohort, bind_eq_ok, require_eq_ok, exists_const, Store.accepted_eq_ok,
      pure_eq_ok, hnow]
    exact ⟨hunaccepted.claims, hunaccepted.receipts, hunaccepted.participants, _,
      Delivered.expectedAssignments_eq hcommitted acceptedAt, _, hinsert, created,
      hsettling.inserts, settled, hsettling.settles, _, hrecord, rfl⟩
  · show Coordinator.mk settled _ _ _ _ = Coordinator.mk _ _ _ _ _
    rw [← hsettling.frame]

end Coordinator

end AgentComms.Coordination
