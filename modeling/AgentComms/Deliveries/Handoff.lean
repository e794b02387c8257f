import AgentComms.Deliveries.Held

/-!
# A message handed to a harness

A bridge takes a message out of the native queue when it stores its attempt. A claim that
is already paused for a running turn stays paused then, and the turn may still give it
back; and a recovery does not look at the attempts at all. Without these two, and while no
triage or execution takes it, the claim of an attempted message never returns to the queue.
-/

namespace AgentComms.Deliveries

open Library Coordination Inputs Relation

variable {Digest : Type} {setting : Setting Digest}
  {world world' : World Digest} {owner : ThreadLookup} {op : DeliveryOp}

def World.restoring (world : World Digest) (owner : ThreadLookup) : Option WakeAssignment :=
  match (world.sessions owner).lock with
  | .recovering _ _ (.settled (claim :: _)) => some claim
  | _ => none

/-- The first attempt on a message does not find its claim paused, a recovery restores no
claim of an attempted message, and no triage or execution writes one. -/
def DeliveryOp.KeepsHandoff (world : World Digest) : DeliveryOp → Prop
  | .recoverRestore _ owner => ∀ claim ∈ world.restoring owner,
      ¬ world.coordinator.Attempted claim.recipientLookup claim.source
  | .coordinate write =>
    (∀ attempt ∈ (DeliveryOp.coordinate write).handsIn world,
      world.coordinator.Attempted attempt.recipientLookup attempt.reference ∨
        ∀ claim ∈ world.coordinator.store.wakeClaims.values,
          claim.recipientLookup = attempt.recipientLookup → claim.source = attempt.reference →
            claim.lifecycle.kind ≠ .deferred) ∧
    (write.wakes = true →
      ∀ claim ∈ (commit (Coordinator.perform write) world.coordinator).store.wakeClaims.values,
        world.coordinator.Attempted claim.recipientLookup claim.source →
          world.coordinator.store.wakeClaims.get? claim.assignmentId = some claim)
  | _ => True

instance (world : World Digest) (op : DeliveryOp) : Decidable (op.KeepsHandoff world) := by
  cases op <;> unfold DeliveryOp.KeepsHandoff <;> infer_instance

/-- The claim is out of the queue, and while it is deferred no process holds its stored
value. -/
def World.Away (world : World Digest) (k : AssignmentId) (claim : WakeAssignment) : Prop :=
  claim.lifecycle.selectedPending = false ∧
    (claim.lifecycle.kind = .deferred → ∀ {owner held}, world.Holds owner held →
      held.assignmentId = k → held.revision < claim.revision)

structure Handed (world : World Digest) : Prop extends Grounded world where
  away : ∀ {k claim}, world.coordinator.store.wakeClaims.get? k = some claim →
    world.coordinator.Attempted claim.recipientLookup claim.source → world.Away k claim

theorem Handed.empty : Handed (World.empty : World Digest) where
  toGrounded := .empty
  away := nofun

theorem isPending_of_unselected {state : AssignmentState} (hout : state.selectedPending = false) :
    state.isPending = false := by
  cases state <;> simp_all [AssignmentState.selectedPending, AssignmentState.isPending,
    AssignmentState.kind]

/-- Only a deferred claim of an execution is selected while it is not pending. -/
theorem unselected_of_isPending {state : AssignmentState} (hout : state.isPending = false)
    (hfree : state.kind = .deferred → state.executionId = none) : state.selectedPending = false := by
  cases state <;> simp_all [AssignmentState.selectedPending, AssignmentState.isPending,
    AssignmentState.kind]

namespace Handed

variable (hhanded : Handed world)
include hhanded

/-- No item of a process moves the claim of an attempted message. -/
theorem unasked {item : Item} {disposition : AssignmentKind}
    {claim after : WakeAssignment} {store : Store} (hitem : item ∈ (world.sessions owner).items)
    (hrevision : claim.revision = item.assignment.revision)
    (hstep : Store.Stepped world.coordinator.store item.assignment.assignmentId disposition claim
      after store) :
    ¬ world.coordinator.Attempted claim.recipientLookup claim.source := by
  intro hattempted
  obtain ⟨hout, hheld⟩ := hhanded.away hstep.stored hattempted
  -- only a pending or a deferred claim has a step to take while it is unbound
  have hkind : claim.lifecycle.isPending = true ∨ claim.lifecycle.kind = .deferred := by
    have hunbound := hstep.unbound
    have hdeclared := hstep.declared
    cases hstate : claim.lifecycle <;> simp_all [AssignmentState.isPending, AssignmentState.kind,
      AssignmentState.executionId, AssignmentState.engagement?, AssignmentKind.successors]
  rcases hkind with hpending | hdeferred
  · rw [isPending_of_unselected hout] at hpending
    cases hpending
  · have hless := hheld hdeferred (.inr ⟨item, hitem, rfl⟩) rfl
    omega

variable [DecidableEq Digest]

section

variable {k : AssignmentId} (hchanged : Changed setting op world world')
include hchanged

theorem holds_before {claim later held : WakeAssignment}
    (hclaim : world.coordinator.store.wakeClaims.get? k = some claim)
    (hattempted : world.coordinator.Attempted claim.recipientLookup claim.source)
    (hlater : world'.coordinator.store.wakeClaims.get? k = some later)
    (hout : later.lifecycle.selectedPending = false) (hholds : world'.Holds owner held)
    (hid : held.assignmentId = k) : world.Holds owner held := by
  rcases hchanged.holds hholds with hheld | ⟨-, hget, -, hselected⟩ |
    ⟨item, hitem, before, hrevision, hstep⟩
  · exact hheld
  · rw [hid, hlater, Option.some.injEq] at hget
    subst hget
    rw [hselected] at hout
    cases hout
  · have hkey : held.assignmentId = item.assignment.assignmentId :=
      world'.coordinator.store.wakeClaims.keyed _ _ hstep.get?_self
    have hbefore := hstep.stored
    rw [← hkey, hid, hclaim, Option.some.injEq] at hbefore
    subst hbefore
    exact absurd hattempted (hhanded.unasked hitem hrevision hstep)

/-- A claim the step leaves stays away. -/
theorem away_of_same {claim : WakeAssignment}
    (hclaim : world.coordinator.store.wakeClaims.get? k = some claim)
    (hattempted : world.coordinator.Attempted claim.recipientLookup claim.source)
    (hlater : world'.coordinator.store.wakeClaims.get? k = some claim) : world'.Away k claim := by
  obtain ⟨hout, hheld⟩ := hhanded.away hclaim hattempted
  refine ⟨hout, fun hdeferred owner held hholds hid => ?_⟩
  have hbefore := hhanded.holds_before hchanged hclaim hattempted hlater hout hholds hid
  exact hheld hdeferred hbefore hid

/-- A new claim is away when its message is attempted. -/
theorem away_of_created {claim : WakeAssignment}
    (hnone : world.coordinator.store.wakeClaims.get? k = none)
    (hout : claim.lifecycle.selectedPending = false) : world'.Away k claim := by
  refine ⟨hout, fun _ owner held hholds hid => ?_⟩
  rcases hchanged.holds hholds with hheld | ⟨hstore, hget, -⟩ | ⟨item, hitem, before, -, hstep⟩
  · obtain ⟨-, stored, hstored, -⟩ := hhanded.held hheld
    rw [hid, hnone] at hstored
    cases hstored
  · rw [hstore, hid, hnone] at hget
    cases hget
  · have hkey : held.assignmentId = item.assignment.assignmentId :=
      world'.coordinator.store.wakeClaims.keyed _ _ hstep.get?_self
    have hbefore := hstep.stored
    rw [← hkey, hid, hnone] at hbefore
    cases hbefore

/-- A claim an attempt moved is away: every process holds an earlier value of it. -/
theorem away_of_handed {claim later : WakeAssignment}
    (hclaim : world.coordinator.store.wakeClaims.get? k = some claim)
    (hlater : world'.coordinator.store.wakeClaims.get? k = some later)
    (hout : later.lifecycle.selectedPending = false) (hrevision : claim.revision < later.revision)
    (hattempted : world.coordinator.Attempted claim.recipientLookup claim.source ∨
      world'.sessions = world.sessions) : world'.Away k later := by
  refine ⟨hout, fun _ owner held hholds hid => ?_⟩
  have hheld : world.Holds owner held := by
    rcases hattempted with hattempted | hsessions
    · exact hhanded.holds_before hchanged hclaim hattempted hlater hout hholds hid
    · unfold World.Holds at hholds ⊢
      rwa [hsessions] at hholds
  obtain ⟨-, stored, hstored, hchain⟩ := hhanded.held hheld
  rw [hid, hclaim, Option.some.injEq] at hstored
  obtain ⟨versions, -, -, hversions⟩ := WakeAssignment.versions_of_chain hchain
  rw [← hstored] at hversions
  omega

theorem away_of_handedIn {attempt : HarnessDelivery} (hop : op.handsIn world = some attempt)
    (hin : Coordinator.HandedIn attempt world.coordinator world'.coordinator)
    (hmeets : op.KeepsHandoff world) {later : WakeAssignment}
    (hlater : world'.coordinator.store.wakeClaims.get? k = some later)
    (hattempted : world'.coordinator.Attempted later.recipientLookup later.source) :
    world'.Away k later := by
  obtain ⟨claim, hclaim, hcases⟩ := hin.effect.origin hlater
  obtain ⟨found, hfound, hchain⟩ := hin.effect.evolve.kept hclaim
  obtain rfl := Option.mem_unique hfound hlater
  obtain ⟨-, -, hrecipient, hseq, hmessage, -⟩ :=
    (WakeAssignment.follows_of_chain hchain).acceptance
  have hsource : found.source = claim.source := by
    rw [WakeAssignment.source, WakeAssignment.source, hseq, hmessage]
  rw [hrecipient, hsource] at hattempted
  by_cases hbefore : world.coordinator.Attempted claim.recipientLookup claim.source
  · rcases hcases with ⟨rfl, -⟩ | ⟨-, -, hoff⟩
    · exact hhanded.away_of_same hchanged hclaim hbefore hlater
    · have hout := hoff.not_pending
      cases hoff with
      | kept hsame =>
        subst hsame
        exact hhanded.away_of_same hchanged hclaim hbefore hlater
      | moved hrevision hkind hopen hunbound =>
        exact hhanded.away_of_handed hchanged hclaim hlater
          (unselected_of_isPending hout fun _ => hunbound) hrevision (.inl hbefore)
  · -- this is the first attempt on the message
    obtain ⟨hlookup, hreference⟩ := (hin.written.added hattempted).resolve_left hbefore
    have hsessions : world'.sessions = world.sessions := by
      rcases hchanged.apart with hsessions | hrest
      · exact hsessions
      · rw [hrest] at hattempted
        exact absurd hattempted hbefore
    rcases hcases with ⟨-, hother⟩ | ⟨-, -, hoff⟩
    · exact absurd ⟨hlookup, congrArg MessageReference.seq hreference⟩ hother
    · have hout := hoff.not_pending
      cases hoff with
      | kept hsame =>
        subst hsame
        have hkind : found.lifecycle.kind ≠ .deferred := by
          cases op with
          | coordinate =>
            exact (hmeets.1 attempt hop).resolve_left (hlookup ▸ hreference ▸ hbefore) _
              (Table.mem_values_of_get? hclaim) hlookup hreference
          | _ => cases hop
        exact ⟨unselected_of_isPending hout fun hdeferred => absurd hdeferred hkind,
          fun hdeferred _ _ _ _ => absurd hdeferred hkind⟩
      | moved hrevision hkind hopen hunbound =>
        exact hhanded.away_of_handed hchanged hclaim hlater
          (unselected_of_isPending hout fun _ => hunbound) hrevision (.inr hsessions)

theorem away_of_stepped {assignmentId k : AssignmentId} {disposition : AssignmentKind}
    {before after later : WakeAssignment} {store : Store}
    (hstore : world'.coordinator.store = store)
    (hstep : Store.Stepped world.coordinator.store assignmentId disposition before after store)
    (hfree : ¬ world.coordinator.Attempted before.recipientLookup before.source)
    (hlater : store.wakeClaims.get? k = some later)
    (hattempted : world.coordinator.Attempted later.recipientLookup later.source) :
    world'.Away k later := by
  by_cases hk : k = assignmentId
  · subst hk
    rw [hstep.get?_self, Option.some.injEq] at hlater
    subst hlater
    rw [hstep.recipient.1, hstep.recipient.2] at hattempted
    exact absurd hattempted hfree
  · have hclaim := hstep.get?_other hk
    exact hhanded.away_of_same hchanged (hclaim.symm.trans hlater) hattempted (hstore ▸ hlater)

end

theorem step (hmeets : op.KeepsHandoff world)
    (hok : World.step setting op world = .ok world') : Handed world' := by
  have hgrounded := hhanded.toGrounded.step hok
  have hchanged := World.changed_of_step hhanded.distinct hok
  refine ⟨hgrounded, fun {k later} hlater hattempted => ?_⟩
  generalize hcoordinator : world'.coordinator = coordinator at hlater hattempted
  have hclaims := hchanged.claims
  rw [hcoordinator] at hclaims
  cases hclaims with
  | kept hsame _ hrest =>
    rw [hrest] at hattempted
    refine hhanded.away_of_same hchanged (hsame ▸ hlater) hattempted ?_
    rwa [hcoordinator]
  | accepted heffect =>
    rw [heffect.rest] at hattempted
    rcases heffect.created hlater with hclaim | ⟨hnone, hunbound, hout⟩
    · refine hhanded.away_of_same hchanged hclaim hattempted ?_
      rwa [hcoordinator]
    · exact hhanded.away_of_created hchanged hnone
        (unselected_of_isPending (hout hattempted) fun _ => hunbound)
  | handed attempt hop hin =>
    subst hcoordinator
    exact hhanded.away_of_handedIn hchanged hop hin hmeets hlater hattempted
  | woken hop hwakes hperform =>
    subst hop
    have hharness := (Coordinator.transition_of_perform hperform).2.2 hwakes
    rw [Coordinator.Attempted, hharness] at hattempted
    have hkey : later.assignmentId = k := coordinator.store.wakeClaims.keyed _ _ hlater
    have hclaim := hmeets.2 hwakes later
      (by rw [commit_of_ok hperform]; exact Table.mem_values_of_get? hlater) hattempted
    rw [hkey] at hclaim
    refine hhanded.away_of_same hchanged hclaim hattempted ?_
    rwa [hcoordinator]
  | asked hitem hasks hrevision hstep =>
    have hfree := hhanded.unasked hitem hrevision hstep
    exact hhanded.away_of_stepped hchanged (congrArg Coordinator.store hcoordinator) hstep hfree
      hlater hattempted
  | @recovered clock owner rootId live claim after rest store hop hlock hstep =>
    have hfree : ¬ world.coordinator.Attempted claim.recipientLookup claim.source := by
      subst hop
      refine hmeets claim ?_
      rw [World.restoring, hlock]
      rfl
    exact hhanded.away_of_stepped hchanged (congrArg Coordinator.store hcoordinator) hstep hfree
      hlater hattempted

end Handed

variable [DecidableEq Digest]

theorem attempted_of_step (hgrounded : Grounded world)
    (hok : World.step setting op world = .ok world') {lookup : ThreadLookup}
    {reference : MessageReference} (hattempted : world.coordinator.Attempted lookup reference) :
    world'.coordinator.Attempted lookup reference := by
  have hclaims := (World.changed_of_step hgrounded.distinct hok).claims
  generalize world'.coordinator = coordinator at hclaims
  cases hclaims with
  | kept hsame _ hrest =>
    rw [hrest]
    exact hattempted
  | accepted heffect =>
    rw [heffect.rest]
    exact hattempted
  | handed attempt hop hin => exact hin.written.kept hattempted
  | woken hop hwakes hperform =>
    subst hop
    rwa [Coordinator.Attempted, (Coordinator.transition_of_perform hperform).2.2 hwakes]
  | asked | recovered => exact hattempted

theorem attempted_of_reached (ops more : List DeliveryOp) {lookup : ThreadLookup}
    {reference : MessageReference}
    (hattempted : (World.reached setting ops).coordinator.Attempted lookup reference) :
    (World.reached setting (ops ++ more)).coordinator.Attempted lookup reference := by
  unfold World.reached
  rw [run_append]
  refine (run_invariant (fun world : World Digest => Grounded world ∧
    world.coordinator.Attempted lookup reference) ?_ more
    ⟨grounded_of_reached setting ops, hattempted⟩).2
  rintro op before after ⟨hgrounded, hbefore⟩ hok
  exact ⟨hgrounded.step hok, attempted_of_step hgrounded hok hbefore⟩

/-- Once an attempt is stored, the recipient's claim on its message is never pending again
and never selected, in every run whose first attempts find no paused claim, whose
recoveries restore no attempted one, and whose triages and executions write none. -/
theorem attempted_message_stays_away (setting : Setting Digest) (ops more : List DeliveryOp)
    (hmeets : Along DeliveryOp.KeepsHandoff (World.step setting) (ops ++ more) World.empty)
    (row : HarnessDelivery) (hrow : row ∈ (World.reached setting ops).coordinator.harness.values)
    (claim : WakeAssignment)
    (hclaim : claim ∈
      (World.reached setting (ops ++ more)).coordinator.store.wakeClaims.values)
    (hrecipient : claim.recipientLookup = row.recipientLookup)
    (hsource : claim.source = row.reference) :
    claim.lifecycle.kind ≠ .triagePending ∧ claim.lifecycle.kind ≠ .fullPending ∧
      ∀ lookup afterSeq, claim ∉ (World.reached setting
        (ops ++ more)).coordinator.pendingSealedAssignments lookup afterSeq := by
  have hhanded : Handed (World.reached setting (ops ++ more)) := run_invariant_along Handed
    (fun _ _ _ hhanded hmeets hok => hhanded.step hmeets hok) _ .empty hmeets
  have hget := Table.mem_values.mp hclaim
  have hattempted := attempted_of_reached ops more ⟨row, hrow, rfl, rfl⟩
  rw [← hrecipient, ← hsource] at hattempted
  obtain ⟨hout, -⟩ := hhanded.away hget hattempted
  have hkinds := isPending_of_unselected hout
  rw [AssignmentState.isPending, Bool.or_eq_false_iff, beq_eq_false_iff_ne,
    beq_eq_false_iff_ne] at hkinds
  refine ⟨hkinds.1, hkinds.2, fun lookup afterSeq hmem => ?_⟩
  obtain ⟨hpending, -⟩ := (Coordinator.mem_pendingSealedAssignments hhanded.distinct).mp hmem
  obtain ⟨-, -, hselected, -⟩ := Coordinator.mem_sealedPending.mp hpending
  rw [hselected] at hout
  cases hout

/-! ### Runs of one message -/

namespace Sample

def ownNames : Setting String := ⟨id, some, fun _ => 0, fun _ => true⟩

def clock : Clock := fun _ => 0

def message : Delivered :=
  ⟨⟨1, "m"⟩, "alice", [(⟨"bob", "bob"⟩, .wake "bob" .direct (.active .full))]⟩

def claim : WakeAssignment where
  assignmentId := "claim"
  recipient := "bob"
  recipientLookup := "bob"
  wireSeq := 1
  messageId := "m"
  audience := .direct
  lifecycle := .fullPending
  acceptedAt := 0
  updatedAt := 0
  revision := 1
  resolverVersion := Coordination.resolverVersion
  policyVersion := Coordination.policyVersion

def attempt : HarnessDelivery := ⟨"codex", "bob", "m", 1, .emitted, .unrecorded⟩

def accepted : List DeliveryOp :=
  [.coordinate (.base (.register "bob" true)),
    .coordinate (.recordCohort clock (fun _ => clock) (fun _ => "claim") "root" message),
    .readPending "bob" 0, .lockDelivery "bob"]

def paused : List DeliveryOp :=
  [.reserve "bob" claim ⟨"bob", "root", 1, "bob", "text"⟩, .pause clock "bob" (.bus 1)]

/-- The queue refuses the message, and its claim is given back. -/
def givenBack : List DeliveryOp :=
  [.place "bob" 0, .finishUnbound "bob" (.bus 1), .restoreItem clock "bob" (.bus 1)]

def handedIn : DeliveryOp := .coordinate (.beginHarness (fun _ => clock) attempt)

def taken : List DeliveryOp := accepted ++ [handedIn]

def deferred : WakeAssignment :=
  { claim with lifecycle := .deferred (.pending .full), revision := 2 }

/-- The claim is no longer the one read, so the reservation is rolled back. -/
def refused : List DeliveryOp := paused ++ [.rollback "bob" (.bus 1), .place "bob" 1]

def recovery : List DeliveryOp :=
  [.recoverLock "bob" "root", .recoverRows "bob", .recoverClaims "bob", .recoverSettle "bob",
    .recoverRestore clock "bob"]

end Sample

/-- The bridge takes the message before its claim is paused, so the reservation fails. -/
theorem attempted_message_stays_away_unpaused :
    Sample.deferred.lifecycle.kind ≠ .fullPending ∧
      Sample.deferred ∉ (World.reached Sample.ownNames
        (Sample.taken ++ Sample.refused)).coordinator.pendingSealedAssignments "bob" 0 := by
  have hmeets : Along DeliveryOp.KeepsHandoff (World.step Sample.ownNames)
      (Sample.taken ++ Sample.refused) World.empty := by decide +kernel
  have hrow : Sample.attempt ∈
      (World.reached Sample.ownNames Sample.taken).coordinator.harness.values := by decide +kernel
  have hclaim : Sample.deferred ∈ (World.reached Sample.ownNames
      (Sample.taken ++ Sample.refused)).coordinator.store.wakeClaims.values := by decide +kernel
  obtain ⟨-, hkind, hmem⟩ := attempted_message_stays_away Sample.ownNames Sample.taken
    Sample.refused hmeets Sample.attempt hrow Sample.deferred hclaim rfl rfl
  exact ⟨hkind, hmem "bob" 0⟩

/-- The row of a message that was given back stays, so a recovery takes the claim back from
the bridge that was handed the message since. -/
theorem recovery_returns_attempted_message :
    Sample.attempt ∈ (World.reached Sample.ownNames (Sample.accepted ++ Sample.paused ++
      Sample.givenBack ++ [Sample.handedIn])).coordinator.harness.values ∧
    ∃ claim ∈ (World.reached Sample.ownNames (Sample.accepted ++ Sample.paused ++
        Sample.givenBack ++ [Sample.handedIn] ++
          Sample.recovery)).coordinator.pendingSealedAssignments "bob" 0,
      claim.recipientLookup = Sample.attempt.recipientLookup ∧
        claim.source = Sample.attempt.reference ∧ claim.lifecycle.kind = .fullPending := by
  decide +kernel

/-- A turn gives a message back that a bridge was handed while its claim was paused. -/
example : ∃ claim ∈ (World.reached Sample.ownNames (Sample.accepted ++ Sample.paused ++
      [Sample.handedIn] ++ Sample.givenBack)).coordinator.pendingSealedAssignments "bob" 0,
    claim.source = Sample.attempt.reference ∧ claim.lifecycle.kind = .fullPending := by
  decide +kernel

end AgentComms.Deliveries
