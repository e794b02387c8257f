import AgentComms.Coordination.Acceptance

/-!
# The acceptance of a message and the bridges that attempt it

One message is accepted, begun, recorded and applied by any bridges in any order.
-/

namespace AgentComms.Coordination

open Library Relation

inductive HandoffOp where
  | accept (clock : Clock) (readings : Readings)
  | begin (readings : Readings) (attempt : HarnessDelivery)
  | record (readings : Readings) (attempt : HarnessDelivery)
  | apply (readings : Readings) (change : HarnessDelivery → HarnessDelivery)
      (attempt : HarnessDelivery)

namespace HandoffOp

def transaction (identify : Identify) (wireRootId : String)
    (initial : Delivered) : HandoffOp → CoordinatorOp
  | accept clock readings => .recordCohort clock readings identify wireRootId initial
  | begin readings attempt => .beginHarness readings attempt
  | record readings attempt => .recordHarness readings attempt
  | apply readings change attempt => .applyHarness readings change attempt

def perform (identify : Identify) (wireRootId : String) (initial : Delivered)
    (op : HandoffOp) : Coordinator → Checked Coordinator :=
  Coordinator.perform (op.transaction identify wireRootId initial)

/-- The operation is a participant's bridge on this message; a repeated begin proves no more
than is stored, and a write keeps what the stored attempt proved and settled. -/
def Keeps (reference : MessageReference) (coordinator : Coordinator) : HandoffOp → Prop
  | accept _ _ => True
  | begin _ attempt => attempt.reference = reference ∧
      (coordinator.store.participants.get? attempt.recipientLookup).isSome = true ∧
      ∀ row ∈ coordinator.harness.get? attempt.identity, attempt.progress ≤ row.progress
  | record _ attempt => attempt.reference = reference ∧
      (coordinator.store.participants.get? attempt.recipientLookup).isSome = true ∧
      ∀ row ∈ coordinator.harness.get? attempt.identity, row.progress ≤ attempt.progress ∧
        (row.outcome.settled = true → attempt.outcome = row.outcome)
  | apply _ change attempt => attempt.reference = reference ∧
      ∀ row ∈ coordinator.harness.get? attempt.identity, (change row).identity = row.identity ∧
        (change row).seq = row.seq ∧ row.progress ≤ (change row).progress

instance (reference : MessageReference) (coordinator : Coordinator) (op : HandoffOp) :
    Decidable (op.Keeps reference coordinator) := by
  unfold Keeps
  split <;> infer_instance

def Unbegun (coordinator : Coordinator) : HandoffOp → Prop
  | apply _ _ attempt => coordinator.harness.get? attempt.identity = none
  | _ => False

end HandoffOp

namespace Coordinator

variable {coordinator coordinator' : Coordinator} {initial : Delivered}
  {identify : Identify} {wireRootId : String} {attempt : HarnessDelivery}

/-- The message is not accepted and has no claims, or it is, with these. -/
def Stage (identify : Identify) (wireRootId : String) (initial : Delivered)
    (expected : List WakeAssignment) (coordinator : Coordinator) : Prop :=
  expected = [] ∧ coordinator.Unaccepted identify initial ∨
    ∃ acceptedAt, expected = initial.claims identify acceptedAt ∧
      coordinator.receipts.get? (wireRootId, initial.reference.seq) =
        some (CohortReceipt.forDelivery wireRootId initial acceptedAt expected)

/-- The attempts on the message are its own, and its claims stand where they put them. -/
structure Handling (identify : Identify) (wireRootId : String)
    (initial : Delivered) (coordinator : Coordinator) : Prop where
  attempts : ∀ row ∈ coordinator.harness.values, row.seq = initial.reference.seq ∨
    row.messageId = initial.reference.messageId → row.reference = initial.reference
  claims : ∃ expected, Standing initial.reference expected
      (coordinator.progressOf initial.reference) coordinator.store ∧
    Stage identify wireRootId initial expected coordinator

/-- What a step keeps of the attempts that were settled and of the acceptance. -/
structure Settles (wireRootId : String) (initial : Delivered)
    (coordinator coordinator' : Coordinator) : Prop where
  outcome : ∀ {key row}, coordinator.harness.get? key = some row → row.outcome.settled = true →
    ∃ row', coordinator'.harness.get? key = some row' ∧ row'.outcome = row.outcome
  receipt : (coordinator.receipts.get? (wireRootId, initial.reference.seq)).isSome = true →
    (coordinator'.receipts.get? (wireRootId, initial.reference.seq)).isSome = true

theorem insertHarness_ok (coordinator : Coordinator) (hvalid : 0 < attempt.seq)
    (hparticipant : (coordinator.store.participants.get? attempt.recipientLookup).isSome = true)
    (hnone : coordinator.harness.get? attempt.identity = none)
    (hother : ∀ other ∈ coordinator.harness.values, ¬ (other.bridge = attempt.bridge ∧
      other.recipientLookup = attempt.recipientLookup ∧ other.seq = attempt.seq)) :
    ∃ coordinator', coordinator.insertHarness attempt = .ok coordinator' ∧
      coordinator' = { coordinator with harness := coordinator'.harness } ∧
      AttemptPut attempt coordinator coordinator' := by
  have hrow : Record.Valid attempt := hvalid
  refine ⟨{ coordinator with harness := coordinator.harness.put attempt hrow }, ?_, rfl,
    Table.get?_put _ _ hrow⟩
  simp only [insertHarness, do_eq_ok, exists_const, Store.accepted_eq_ok]
  refine ⟨⟨hparticipant, ?_⟩, _, Table.insert?_eq_some hrow hnone, rfl⟩
  rw [List.all_eq_true]
  intro other hmem
  have hne := hother other hmem
  simp only [Bool.not_eq_true', Bool.and_eq_false_iff, beq_eq_false_iff_ne, or_assoc]
  rwa [not_and_or, not_and_or] at hne

theorem AttemptPut.settles (hput : AttemptPut attempt coordinator coordinator')
    (hreceipts : coordinator'.receipts = coordinator.receipts)
    (hkeeps : ∀ row ∈ coordinator.harness.get? attempt.identity,
      row.outcome.settled = true → attempt.outcome = row.outcome) :
    Settles wireRootId initial coordinator coordinator' := by
  refine ⟨fun {key row} hrow hsettled => ?_, fun hsome => by rwa [hreceipts]⟩
  by_cases hkey : key = attempt.identity
  · subst hkey
    exact ⟨attempt, (hput _).trans (if_pos rfl), hkeeps row hrow hsettled⟩
  · exact ⟨row, (hput key).trans ((if_neg hkey).trans hrow), rfl⟩

theorem Settles.refl (wireRootId : String) (initial : Delivered) (coordinator : Coordinator) :
    Settles wireRootId initial coordinator coordinator := ⟨fun hrow _ => ⟨_, hrow, rfl⟩, id⟩

theorem Settles.trans {coordinator'' : Coordinator}
    (hfirst : Settles wireRootId initial coordinator coordinator')
    (hsecond : Settles wireRootId initial coordinator' coordinator'') :
    Settles wireRootId initial coordinator coordinator'' := by
  refine ⟨fun hrow hsettled => ?_, hsecond.receipt ∘ hfirst.receipt⟩
  obtain ⟨row', hrow', houtcome⟩ := hfirst.outcome hrow hsettled
  obtain ⟨row'', hrow'', houtcome'⟩ := hsecond.outcome hrow' (houtcome ▸ hsettled)
  exact ⟨row'', hrow'', houtcome'.trans houtcome⟩

section Handled

variable (hhandling : Handling identify wireRootId initial coordinator)
include hhandling

theorem Handling.keys : coordinator.store.ForeignKeys := by
  obtain ⟨_, hstanding, -⟩ := hhandling.claims
  exact hstanding.keys

section Attempt

variable (hreference : attempt.reference = initial.reference)
include hreference

/-- A stored attempt on the message is at its sequence. -/
theorem Handling.reference_of_stored {row : HarnessDelivery}
    (hrow : coordinator.harness.get? attempt.identity = some row) :
    row.reference = attempt.reference := by
  have hmessage : row.messageId = attempt.messageId :=
    congrArg (fun key => key.2.2) (coordinator.harness.keyed _ _ hrow)
  rw [hreference]
  refine hhandling.attempts row (Table.mem_values_of_get? hrow) (.inr ?_)
  exact hmessage.trans (congrArg MessageReference.messageId hreference)

theorem Handling.stored_eq :
    coordinator.stored attempt = .ok (coordinator.harness.get? attempt.identity) := by
  unfold stored
  split
  next hnone =>
    rw [hnone]
    rfl
  next row hrow =>
    have hseq : row.seq = attempt.seq :=
      congrArg MessageReference.seq (hhandling.reference_of_stored hreference hrow)
    rw [hrow]
    simp only [do_eq_ok, exists_const]
    exact ⟨hseq, trivial⟩

/-- No other attempt of the bridge stands at the message's sequence. -/
theorem Handling.free (hnone : coordinator.harness.get? attempt.identity = none) :
    ∀ other ∈ coordinator.harness.values, ¬ (other.bridge = attempt.bridge ∧
      other.recipientLookup = attempt.recipientLookup ∧ other.seq = attempt.seq) := by
  rintro other hmem ⟨hbridge, hlookup, hseq⟩
  have hother := hhandling.attempts other hmem
    (.inl (hseq.trans (congrArg MessageReference.seq hreference)))
  have hmessage : other.messageId = attempt.messageId :=
    congrArg MessageReference.messageId (hother.trans hreference.symm)
  have hget := Table.mem_values.mp hmem
  rw [show Record.key other = attempt.identity from
    Prod.ext hbridge (Prod.ext hlookup hmessage), hnone] at hget
  cases hget

theorem Handling.settles (readings : Readings) :
    ∃ store expected, settleClaims readings coordinator.store attempt = .ok store ∧
      store = { coordinator.store with wakeClaims := store.wakeClaims } ∧
      Standing initial.reference expected
        (Function.update (coordinator.progressOf initial.reference) attempt.recipientLookup
          (max (coordinator.progressOf initial.reference attempt.recipientLookup)
            attempt.progress)) store ∧
      Stage identify wireRootId initial expected { coordinator with store } := by
  obtain ⟨expected, hstanding, hstage⟩ := hhandling.claims
  rw [← hreference] at hstanding ⊢
  obtain ⟨store, hsettle, hsettled, hframe, hsame, -⟩ := hstanding.settles readings
  refine ⟨store, expected, hsettle, hframe, hsettled, hstage.imp_left ?_⟩
  rintro ⟨hnone, hunaccepted⟩
  rw [hsame hnone]
  exact ⟨hnone, hunaccepted⟩

theorem Handling.put
    (hgrows : ∀ row ∈ coordinator.harness.get? attempt.identity, row.progress ≤ attempt.progress)
    {store : Store} {expected : List WakeAssignment}
    (hstanding : Standing initial.reference expected
      (Function.update (coordinator.progressOf initial.reference) attempt.recipientLookup
        (max (coordinator.progressOf initial.reference attempt.recipientLookup)
          attempt.progress)) store)
    (hstage : Stage identify wireRootId initial expected { coordinator with store })
    (hframe : coordinator' = { coordinator with store, harness := coordinator'.harness })
    (hput : AttemptPut attempt coordinator coordinator') :
    Handling identify wireRootId initial coordinator' := by
  have hprogress : ∀ lookup, coordinator'.progressOf initial.reference lookup =
      Function.update (coordinator.progressOf initial.reference) attempt.recipientLookup
        (max (coordinator.progressOf initial.reference attempt.recipientLookup)
          attempt.progress) lookup := by
    intro lookup
    rw [← hreference, hput.progressOf_eq (fun row hrow =>
      ⟨hhandling.reference_of_stored hreference hrow, hgrows row hrow⟩), Function.update_apply]
    split
    next hlookup => rw [hlookup]
    · rfl
  refine ⟨fun row hrow hmessage => ?_, expected, ?_, ?_⟩
  · have hget := Table.mem_values.mp hrow
    rw [hput] at hget
    split at hget
    · rw [← Option.some.inj hget]
      exact hreference
    · exact hhandling.attempts row (Table.mem_values_of_get? hget) hmessage
  · rw [show coordinator'.store = store by rw [hframe]]
    exact hstanding.congr fun _ _ => hprogress _
  · rw [hframe]
    refine hstage.imp_left ?_
    rintro ⟨hnone, hunaccepted⟩
    exact ⟨hnone, { hunaccepted with }⟩

/-! ### One operation -/

variable (hcommitted : initial.Committed identify)
include hcommitted

/-- An attempt on the message is written, new or again. -/
theorem Handling.writeHarness_ok {store : Store}
    (hparticipant : coordinator.harness.get? attempt.identity = none →
      (store.participants.get? attempt.recipientLookup).isSome = true) :
    ∃ coordinator', { coordinator with store }.writeHarness attempt = .ok coordinator' ∧
      coordinator' = { coordinator with store, harness := coordinator'.harness } ∧
      AttemptPut attempt coordinator coordinator' := by
  have hvalid : 0 < attempt.reference.seq := hreference ▸ hcommitted.seq
  have hstored := hhandling.stored_eq hreference
  simp only [writeHarness, bind_eq_ok]
  unfold upsertHarness
  cases hget : coordinator.harness.get? attempt.identity with
  | none =>
    obtain ⟨coordinator', hinsert, hframe, hput⟩ := insertHarness_ok { coordinator with store }
      hvalid (hparticipant hget) hget (hhandling.free hreference hget)
    exact ⟨coordinator', ⟨_, hstored, hinsert⟩, hframe, hput⟩
  | some row =>
    have hseq : row.seq = attempt.seq :=
      congrArg MessageReference.seq (hhandling.reference_of_stored hreference hget)
    have hrow : Record.Valid attempt := hvalid
    have hadmits : Record.Admits row attempt :=
      ⟨(coordinator.harness.keyed _ _ hget).symm, hseq.symm⟩
    refine ⟨{ coordinator with store, harness := coordinator.harness.put attempt hrow },
      ⟨_, hstored, ?_⟩, rfl, Table.get?_put _ _ hrow⟩
    simp only [do_eq_ok, Store.accepted_eq_ok]
    exact ⟨_, Table.update?_eq_some hget rfl hadmits hrow, rfl⟩

/-- The writes of `record` on the message go through. -/
theorem Handling.recordIn_ok (hparticipant : coordinator.harness.get? attempt.identity = none →
      (coordinator.store.participants.get? attempt.recipientLookup).isSome = true)
    (hgrows : ∀ row ∈ coordinator.harness.get? attempt.identity, row.progress ≤ attempt.progress ∧
      (row.outcome.settled = true → attempt.outcome = row.outcome))
    (readings : Readings) :
    ∃ coordinator', recordIn readings attempt coordinator = .ok (coordinator', attempt) ∧
      Handling identify wireRootId initial coordinator' ∧
      Settles wireRootId initial coordinator coordinator' := by
  obtain ⟨store, expected, hsettle, hstore, hstanding, hstage⟩ :=
    hhandling.settles hreference readings
  have hparticipant' : coordinator.harness.get? attempt.identity = none →
      (store.participants.get? attempt.recipientLookup).isSome = true := by
    rw [hstore]
    exact hparticipant
  obtain ⟨coordinator', hwrite, hframe, hput⟩ :=
    hhandling.writeHarness_ok hreference hcommitted hparticipant'
  refine ⟨coordinator', ?_, ?_, ?_⟩
  · simp only [recordIn, bind_eq_ok, pure_eq_ok]
    exact ⟨store, hsettle, coordinator', hwrite, rfl⟩
  · exact hhandling.put hreference (fun row hrow => (hgrows row hrow).1) hstanding hstage hframe hput
  · exact hput.settles (by rw [hframe]) fun row hrow => (hgrows row hrow).2

theorem Handling.begin_ok
    (hparticipant : (coordinator.store.participants.get? attempt.recipientLookup).isSome = true)
    (hstored : ∀ row ∈ coordinator.harness.get? attempt.identity, attempt.progress ≤ row.progress)
    (readings : Readings) :
    ∃ coordinator' first, beginHarness readings attempt coordinator = .ok (coordinator', first) ∧
      Handling identify wireRootId initial coordinator' ∧
      Settles wireRootId initial coordinator coordinator' := by
  obtain ⟨store, expected, hsettle, hstore, hstanding, hstage⟩ :=
    hhandling.settles hreference readings
  have hread := hhandling.stored_eq hreference
  cases hget : coordinator.harness.get? attempt.identity with
  | none =>
    have hvalid : 0 < attempt.reference.seq := hreference ▸ hcommitted.seq
    have hparticipant' : (store.participants.get? attempt.recipientLookup).isSome = true := by
      rw [hstore]
      exact hparticipant
    obtain ⟨coordinator', hinsert, hframe, hput⟩ := insertHarness_ok { coordinator with store }
      hvalid hparticipant' hget (hhandling.free hreference hget)
    have hnone : ∀ row ∈ coordinator.harness.get? attempt.identity, False := by
      rw [hget]
      exact nofun
    have hhandling' := hhandling.put hreference (fun row hrow => (hnone row hrow).elim)
      hstanding hstage hframe hput
    refine ⟨coordinator', true, ?_, hhandling', ?_⟩
    · rw [beginHarness, writing_eq_ok]
      refine ⟨?_, hhandling'.keys⟩
      simp only [firstWrite, bind_eq_ok]
      refine ⟨store, hsettle, _, hread, ?_⟩
      rw [hget]
      simp only [bind_eq_ok, pure_eq_ok]
      exact ⟨coordinator', hinsert, rfl⟩
    · have hreceipts : coordinator'.receipts = coordinator.receipts := by rw [hframe]
      exact AttemptPut.settles hput hreceipts fun row hrow => (hnone row hrow).elim
  | some row =>
    -- the stored attempt already proves what this one does
    have hknown : attempt.progress ≤
        coordinator.progressOf initial.reference attempt.recipientLookup := by
      have hlookup : row.recipientLookup = attempt.recipientLookup :=
        congrArg (fun key => key.2.1) (coordinator.harness.keyed _ _ hget)
      exact (hstored row hget).trans (progressOf_le.mp le_rfl row (Table.mem_values_of_get? hget)
        hlookup ((hhandling.reference_of_stored hreference hget).trans hreference))
    have hhandling' : Handling identify wireRootId initial { coordinator with store } := by
      refine ⟨hhandling.attempts, expected, hstanding.congr fun accepted _ => ?_, hstage⟩
      rw [max_eq_left hknown, Function.update_eq_self]
      rfl
    refine ⟨{ coordinator with store }, false, ?_, hhandling', fun hrow _ => ⟨_, hrow, rfl⟩, id⟩
    rw [beginHarness, writing_eq_ok]
    refine ⟨?_, hhandling'.keys⟩
    simp only [firstWrite, bind_eq_ok]
    refine ⟨store, hsettle, _, hread, ?_⟩
    rw [hget]
    rfl

theorem Handling.apply_ok {row : HarnessDelivery}
    (hrow : coordinator.harness.get? attempt.identity = some row)
    {change : HarnessDelivery → HarnessDelivery} (hidentity : (change row).identity = row.identity)
    (hseq : (change row).seq = row.seq) (hgrows : row.progress ≤ (change row).progress)
    (readings : Readings) :
    ∃ coordinator' written, applyHarness readings change attempt coordinator =
        .ok (coordinator', written) ∧ Handling identify wireRootId initial coordinator' ∧
      Settles wireRootId initial coordinator coordinator' := by
  have hkey : row.identity = attempt.identity := coordinator.harness.keyed _ _ hrow
  have hrowReference : row.reference = initial.reference :=
    (hhandling.reference_of_stored hreference hrow).trans hreference
  have hchanged : (change row).reference = initial.reference := by
    rw [← hrowReference, HarnessDelivery.reference, HarnessDelivery.reference, hseq,
      show (change row).messageId = row.messageId from congrArg (fun key => key.2.2) hidentity]
  have hread : coordinator.harness.get? (change row).identity = some row := by
    rw [hidentity, hkey, hrow]
  have hstored := hhandling.stored_eq hreference
  have hstored' := hhandling.stored_eq hchanged
  rw [hrow] at hstored
  rw [hread] at hstored'
  cases hsettled : row.outcome.settled with
  | true =>
    refine ⟨coordinator, row, ?_, hhandling, .refl _ _ _⟩
    rw [applyHarness, writing_eq_ok]
    refine ⟨?_, hhandling.keys⟩
    simp only [bind_eq_ok, orRefuse_eq_ok]
    refine ⟨_, hstored, row, rfl, ?_⟩
    rw [settleOutcome, if_pos hsettled]
    simp only [bind_eq_ok, orRefuse_eq_ok, pure_eq_ok]
    exact ⟨_, hstored', row, rfl, rfl⟩
  | false =>
    have hgrows' : ∀ other ∈ coordinator.harness.get? (change row).identity,
        other.progress ≤ (change row).progress ∧
          (other.outcome.settled = true → (change row).outcome = other.outcome) := by
      intro other hother
      rw [hread] at hother
      obtain rfl := Option.some.inj hother
      exact ⟨hgrows, fun htrue => absurd htrue (by rw [hsettled]; exact Bool.false_ne_true)⟩
    obtain ⟨coordinator', hrecord, hhandling', hsettles⟩ := hhandling.recordIn_ok hchanged
      hcommitted (fun hnone => by rw [hread] at hnone; cases hnone) hgrows' readings
    refine ⟨coordinator', change row, ?_, hhandling', hsettles⟩
    rw [applyHarness, writing_eq_ok]
    refine ⟨?_, hhandling'.keys⟩
    simp only [bind_eq_ok, orRefuse_eq_ok]
    refine ⟨_, hstored, row, rfl, ?_⟩
    rw [settleOutcome, if_neg (by rw [hsettled]; exact Bool.false_ne_true)]
    exact hrecord

end Attempt

/-- An acceptance goes through, first or again. -/
theorem Handling.accept_ok (hcommitted : initial.Committed identify) (clock : Clock)
    (readings : Readings) :
    ∃ coordinator' result, recordCohort clock readings identify wireRootId initial coordinator =
        .ok (coordinator', result) ∧ Handling identify wireRootId initial coordinator' ∧
      Settles wireRootId initial coordinator coordinator' ∧
      (coordinator'.receipts.get? (wireRootId, initial.reference.seq)).isSome = true := by
  obtain ⟨expected, hstanding, hstage⟩ := hhandling.claims
  rcases hstage with ⟨rfl, hunaccepted⟩ | ⟨acceptedAt, rfl, hreceipt⟩
  · obtain ⟨coordinator', accepted, hrecord, hnew⟩ := recordNewCohort_ok hcommitted
      hstanding.distinct hstanding.keys hunaccepted clock readings wireRootId
    have hreceipt := (hnew.receipts (wireRootId, initial.reference.seq)).trans (if_pos rfl)
    have hfree : coordinator.receipts.get? (wireRootId, initial.reference.seq) = none :=
      hunaccepted.receipt_none wireRootId
    have hharness : coordinator'.harness = coordinator.harness := by rw [hnew.frame]
    refine ⟨coordinator', .applied accepted, ?_, ⟨?_, initial.claims identify (clock.now .created 0),
      ?_, .inr ⟨_, rfl, hreceipt⟩⟩, ?_, by rw [hreceipt]; rfl⟩
    · rw [recordCohort, writing_eq_ok]
      refine ⟨?_, hnew.standing.keys⟩
      rw [hfree]
      exact hrecord
    · rw [hharness]
      exact hhandling.attempts
    · exact hnew.standing.congr fun _ _ => by simp only [progressOf, Attempted, hharness]
    · exact ⟨fun hrow _ => ⟨_, hharness ▸ hrow, rfl⟩, fun _ => by rw [hreceipt]; rfl⟩
  · obtain ⟨current, hrecord, -⟩ :=
      (hstanding.accepted_of_receipt hcommitted hreceipt).claimRecord_ok hcommitted
    generalize AcceptedCohort.mk _ _ _ _ _ _ current = accepted at hrecord
    refine ⟨coordinator, .alreadyApplied accepted, ?_, hhandling, .refl _ _ _,
      by rw [hreceipt]; rfl⟩
    rw [recordCohort, writing_eq_ok]
    refine ⟨?_, hstanding.keys⟩
    rw [hreceipt]
    simp only [bind_eq_ok, pure_eq_ok]
    exact ⟨accepted, hrecord, rfl⟩

end Handled

end Coordinator

namespace HandoffOp

variable {coordinator : Coordinator} {initial : Delivered}
  {identify : Identify} {wireRootId : String}
  (hcommitted : initial.Committed identify)
  (hhandling : Coordinator.Handling identify wireRootId initial coordinator)
include hcommitted hhandling

open Coordinator in
/-- An operation that keeps what is stored is not refused, save a change of an attempt that
was never begun. -/
theorem step {op : HandoffOp} (hkeeps : op.Keeps initial.reference coordinator) :
    (op.Unbegun coordinator ∧
        ∀ coordinator', op.perform identify wireRootId initial coordinator ≠ .ok coordinator') ∨
      ∃ coordinator', op.perform identify wireRootId initial coordinator = .ok coordinator' ∧
        Handling identify wireRootId initial coordinator' ∧
        Settles wireRootId initial coordinator coordinator' ∧
        ((∃ clock readings, op = .accept clock readings) →
          (coordinator'.receipts.get? (wireRootId, initial.reference.seq)).isSome = true) := by
  cases op with
  | accept clock readings =>
    obtain ⟨coordinator', _, hok, hhandling', hsettles, hreceipt⟩ :=
      hhandling.accept_ok hcommitted clock readings
    exact .inr ⟨coordinator', map_eq_ok.mpr ⟨_, hok, rfl⟩, hhandling', hsettles,
      fun _ => hreceipt⟩
  | begin readings =>
    obtain ⟨hreference, hparticipant, hstored⟩ := hkeeps
    obtain ⟨coordinator', _, hok, hhandling', hsettles⟩ :=
      hhandling.begin_ok hreference hcommitted hparticipant hstored readings
    exact .inr ⟨coordinator', map_eq_ok.mpr ⟨_, hok, rfl⟩, hhandling', hsettles, nofun⟩
  | record readings attempt =>
    obtain ⟨hreference, hparticipant, hgrows⟩ := hkeeps
    obtain ⟨coordinator', hok, hhandling', hsettles⟩ :=
      hhandling.recordIn_ok hreference hcommitted (fun _ => hparticipant) hgrows readings
    refine .inr ⟨coordinator', map_eq_ok.mpr ⟨(coordinator', attempt), ?_, rfl⟩, hhandling',
      hsettles, nofun⟩
    exact writing_eq_ok.mpr ⟨hok, hhandling'.keys⟩
  | apply readings change attempt =>
    obtain ⟨hreference, hchange⟩ := hkeeps
    cases hrow : coordinator.harness.get? attempt.identity with
    | none =>
      refine .inl ⟨hrow, fun coordinator' hok => ?_⟩
      obtain ⟨_, hok, -⟩ := map_eq_ok.mp hok
      obtain ⟨hok, -⟩ := writing_eq_ok.mp hok
      rw [hhandling.stored_eq hreference, hrow] at hok
      cases hok
    | some row =>
      obtain ⟨hidentity, hseq, hgrows⟩ := hchange row hrow
      obtain ⟨coordinator', _, hok, hhandling', hsettles⟩ :=
        hhandling.apply_ok hreference hcommitted hrow hidentity hseq hgrows readings
      exact .inr ⟨coordinator', map_eq_ok.mpr ⟨_, hok, rfl⟩, hhandling', hsettles, nofun⟩

/-! ### Runs -/

variable {ops : List HandoffOp}
  (hkeeps : Along (fun coordinator op => op.Keeps initial.reference coordinator)
    (perform identify wireRootId initial) ops coordinator)
include hkeeps

theorem run_handling :
    Coordinator.Handling identify wireRootId initial
        (run (perform identify wireRootId initial) ops coordinator) ∧
      Coordinator.Settles wireRootId initial coordinator
        (run (perform identify wireRootId initial) ops coordinator) := by
  refine run_invariant_along (fun later => Coordinator.Handling identify wireRootId initial later ∧
    Coordinator.Settles wireRootId initial coordinator later) ?_ ops
    ⟨hhandling, .refl _ _ _⟩ hkeeps
  rintro op before after ⟨hbefore, hsettles⟩ hmeets hok
  rcases step hcommitted hbefore hmeets with
    ⟨-, hrefused⟩ | ⟨later, hlater, hhandling', hsettles', -⟩
  · exact absurd hok (hrefused after)
  · rw [hok, Except.ok.injEq] at hlater
    subst hlater
    exact ⟨hhandling', hsettles.trans hsettles'⟩

/-- Nothing is refused on the way but a change of an attempt that was never begun. -/
theorem along_ok :
    Along (fun coordinator op => op.Unbegun coordinator ∨
        ∃ coordinator', op.perform identify wireRootId initial coordinator = .ok coordinator')
      (perform identify wireRootId initial) ops coordinator := by
  induction ops generalizing coordinator with
  | nil => trivial
  | cons op ops ih =>
    obtain ⟨hfirst, hrest⟩ := hkeeps
    have hone : Along (fun coordinator op => op.Keeps initial.reference coordinator)
        (perform identify wireRootId initial) [op] coordinator := ⟨hfirst, trivial⟩
    refine ⟨?_, ih (run_handling hcommitted hhandling hone).1 hrest⟩
    rcases step hcommitted hhandling hfirst with ⟨hunbegun, -⟩ | ⟨later, hlater, -⟩
    · exact .inl hunbegun
    · exact .inr ⟨later, hlater⟩

theorem receipt_of_accept {clock : Clock}
    {readings : Readings} (haccept : accept clock readings ∈ ops) :
    ((run (perform identify wireRootId initial) ops coordinator).receipts.get?
      (wireRootId, initial.reference.seq)).isSome = true := by
  obtain ⟨first, rest, rfl⟩ := List.append_of_mem haccept
  obtain ⟨hfirst, hrest⟩ := along_append.mp hkeeps
  obtain ⟨hbefore, -⟩ := run_handling hcommitted hhandling hfirst
  rw [run_append, run_cons]
  obtain ⟨haccepts, hafter⟩ := hrest
  rcases step hcommitted hbefore haccepts with ⟨hunbegun, -⟩ | ⟨later, hlater, hhandling', -, hstored⟩
  · exact hunbegun.elim
  · rw [commit_of_ok hlater] at hafter ⊢
    exact (run_handling hcommitted hhandling' hafter).2.receipt (hstored ⟨_, _, rfl⟩)

end HandoffOp

variable {coordinator : Coordinator} {initial : Delivered}
  {identify : Identify} {wireRootId : String}

/-- An accepted claim stands where the stored attempts put it. -/
theorem Coordinator.Handling.claim
    (hhandling : Handling identify wireRootId initial coordinator)
    (hreceipt : (coordinator.receipts.get? (wireRootId, initial.reference.seq)).isSome = true)
    {member : FrozenRecipient × RecipientDecision} (hmember : member ∈ initial.recipients)
    {lookup : ThreadLookup} {audience : MessageAudience} {mode : WakePolicy}
    (hdecision : member.2 = .wake lookup audience mode) :
    ∃ claim, coordinator.store.wakeClaims.get? (identify lookup) = some claim ∧
      claim.lifecycle = (coordinator.progressOf initial.reference lookup).claimState mode := by
  obtain ⟨expected, hstanding, ⟨-, hunaccepted⟩ | ⟨acceptedAt, rfl, -⟩⟩ := hhandling.claims
  · rw [hunaccepted.receipt_none] at hreceipt
    cases hreceipt
  · obtain ⟨accepted, haccepted⟩ : ∃ accepted,
        initial.claimOf identify acceptedAt member = some accepted := by
      rw [Delivered.claimOf, hdecision]
      exact ⟨_, rfl⟩
    obtain ⟨claim, hget, -, hlifecycle⟩ :=
      hstanding.stored accepted (Delivered.mem_claims.mpr ⟨member, hmember, haccepted⟩)
    have hclaims := Delivered.claims_of_claimOf haccepted
    obtain ⟨_, _, hdecision', hinitial⟩ := hclaims.decided
    obtain ⟨hlookup, -, hmode⟩ := RecipientDecision.wake.inj (hdecision.symm.trans hdecision')
    refine ⟨claim, ?_, ?_⟩
    · rw [hlookup, ← hclaims.identity]
      exact hget
    · rw [hlifecycle, hlookup, hinitial, Delivered.mode_initialState, hmode]

namespace Coordinator

/-- A stored attempt on the message observed its start for this recipient. -/
def Observed (coordinator : Coordinator) (lookup : ThreadLookup) (reference : MessageReference) :
    Prop :=
  ∃ row ∈ coordinator.harness.values, row.recipientLookup = lookup ∧ row.reference = reference ∧
    ∃ recordId, row.monitor = .observed recordId

theorem progressOf_cases (coordinator : Coordinator) (reference : MessageReference)
    (lookup : ThreadLookup) :
    (coordinator.Observed lookup reference →
      coordinator.progressOf reference lookup = .observed) ∧
    (coordinator.Attempted lookup reference → ¬ coordinator.Observed lookup reference →
      coordinator.progressOf reference lookup = .handedOff) ∧
    (¬ coordinator.Attempted lookup reference →
      coordinator.progressOf reference lookup = .untouched) := by
  have hprogress : ∀ row : HarnessDelivery,
      row.progress = .observed ↔ ∃ recordId, row.monitor = .observed recordId := by
    intro row
    unfold HarnessDelivery.progress
    cases row.monitor <;> simp
  have hobserved : (∃ row ∈ coordinator.harness.values, row.recipientLookup = lookup ∧
      row.reference = reference ∧ row.progress = .observed) ↔
        coordinator.Observed lookup reference := by
    simp only [Observed, hprogress]
  unfold progressOf
  refine ⟨fun h => if_pos (hobserved.mpr h), fun h hnot => ?_, fun hnot => ?_⟩
  · rw [if_neg (mt hobserved.mp hnot), if_pos h]
  · rw [if_neg, if_neg hnot]
    rintro ⟨row, hrow, hlookup, hreference, -⟩
    exact hnot ⟨row, hrow, hlookup, hreference⟩

end Coordinator

def HandoffOp.handled (identify : Identify) (wireRootId : String)
    (initial : Delivered) (history : List CoordinatorOp) (ops : List HandoffOp) : Coordinator :=
  run (HandoffOp.perform identify wireRootId initial) ops (Coordinator.reached history)

/-- Whatever the order of a message's acceptance and of the bridges that attempt it, nothing
is refused for the claim's state, the claim ends where the stored attempts put it, and a
settled outcome stays. -/
theorem acceptance_and_attempts_commute (initial : Delivered)
    (identify : Identify) (wireRootId : String)
    (hcommitted : initial.Committed identify) (history : List CoordinatorOp)
    (hunaccepted : (Coordinator.reached history).Unaccepted identify initial)
    (hunattempted : ∀ row ∈ (Coordinator.reached history).harness.values,
      row.seq ≠ initial.reference.seq ∧ row.messageId ≠ initial.reference.messageId)
    (ops : List HandoffOp)
    (hkeeps : Along (fun coordinator op => op.Keeps initial.reference coordinator)
      (HandoffOp.perform identify wireRootId initial) ops (Coordinator.reached history)) :
    Along (fun coordinator op => op.Unbegun coordinator ∨
        ∃ later, op.perform identify wireRootId initial coordinator = .ok later)
      (HandoffOp.perform identify wireRootId initial) ops (Coordinator.reached history) ∧
    (∀ clock readings, HandoffOp.accept clock readings ∈ ops → ∀ member ∈ initial.recipients,
      ∀ lookup audience wake, member.2 = .wake lookup audience (.active wake) →
        ∃ claim, (HandoffOp.handled identify wireRootId initial history
            ops).store.wakeClaims.get? (identify lookup) = some claim ∧
          ((HandoffOp.handled identify wireRootId initial history ops).Observed lookup
            initial.reference → claim.lifecycle = .delivered wake) ∧
          ((HandoffOp.handled identify wireRootId initial history ops).Attempted lookup
            initial.reference →
            ¬ (HandoffOp.handled identify wireRootId initial history ops).Observed lookup
              initial.reference → claim.lifecycle = .deferred (.pending wake)) ∧
          (¬ (HandoffOp.handled identify wireRootId initial history ops).Attempted lookup
            initial.reference → claim.lifecycle = (WakePolicy.active wake).initialState)) ∧
    ∀ first rest, ops = first ++ rest → ∀ key row,
      (HandoffOp.handled identify wireRootId initial history first).harness.get? key = some row →
      row.outcome.settled = true →
      ∃ later, (HandoffOp.handled identify wireRootId initial history ops).harness.get? key =
        some later ∧ later.outcome = row.outcome := by
  have hhandling : Coordinator.Handling identify wireRootId initial (Coordinator.reached history) :=
    ⟨fun row hrow hmessage =>
      (hmessage.elim (hunattempted row hrow).1 (hunattempted row hrow).2).elim, [],
      ⟨Coordinator.distinct_of_reached history, Coordinator.foreignKeys_of_reached history, nofun,
        nofun, fun claim hclaim hseq => absurd hseq (hunaccepted.claims claim hclaim)⟩,
      .inl ⟨rfl, hunaccepted⟩⟩
  refine ⟨HandoffOp.along_ok hcommitted hhandling hkeeps, ?_, ?_⟩
  · intro clock readings haccept member hmember lookup audience wake hdecision
    obtain ⟨hfinal, -⟩ := HandoffOp.run_handling hcommitted hhandling hkeeps
    obtain ⟨claim, hget, hlifecycle⟩ := hfinal.claim
      (HandoffOp.receipt_of_accept hcommitted hhandling hkeeps haccept) hmember hdecision
    obtain ⟨hobserved, hattempted, hnone⟩ := Coordinator.progressOf_cases
      (HandoffOp.handled identify wireRootId initial history ops) initial.reference lookup
    refine ⟨claim, hget, fun h => ?_, fun h hnot => ?_, fun hnot => ?_⟩
    · exact hlifecycle.trans (congrArg (HarnessProgress.claimState _) (hobserved h))
    · exact hlifecycle.trans (congrArg (HarnessProgress.claimState _) (hattempted h hnot))
    · exact hlifecycle.trans (congrArg (HarnessProgress.claimState _) (hnone hnot))
  · rintro first rest rfl key row hrow hsettled
    obtain ⟨hfirst, hrest⟩ := along_append.mp hkeeps
    obtain ⟨hbefore, -⟩ := HandoffOp.run_handling hcommitted hhandling hfirst
    rw [HandoffOp.handled, run_append]
    exact (HandoffOp.run_handling hcommitted hbefore hrest).2.outcome hrow hsettled

def sampleDelivery : Delivered :=
  ⟨⟨7, "m"⟩, "r", [(⟨"a", "alice"⟩, .wake "a" .direct (.active .full))]⟩

def sampleIdentify (lookup : ThreadLookup) : AssignmentId := "c" ++ lookup

def sampleHistory : List CoordinatorOp := [.base (.register "a" true)]

def sampleAttempt (outcome : HarnessOutcome) (monitor : HarnessMonitor) : HarnessDelivery :=
  ⟨"claude", "a", "m", 7, outcome, monitor⟩

theorem sampleDelivery_committed : sampleDelivery.Committed sampleIdentify := by
  constructor <;> decide

theorem sampleHistory_unaccepted :
    (Coordinator.reached sampleHistory).Unaccepted sampleIdentify sampleDelivery := by
  constructor <;> decide +kernel

def sampleHandoffs : List HandoffOp :=
  [.begin (fun _ _ => 0) (sampleAttempt .unconfirmed .unrecorded),
    .accept (fun _ => 0) (fun _ _ => 0),
    .apply (fun _ _ => 0) (fun row => { row with outcome := .delivered, monitor := .observed "e" })
      (sampleAttempt .unconfirmed .unrecorded)]

theorem acceptance_and_attempts_commute_sample :
    Along (fun coordinator op => op.Keeps sampleDelivery.reference coordinator)
      (HandoffOp.perform sampleIdentify "root" sampleDelivery) sampleHandoffs
      (Coordinator.reached sampleHistory) ∧
    ∃ claim, (HandoffOp.handled sampleIdentify "root" sampleDelivery sampleHistory
      sampleHandoffs).store.wakeClaims.get? "ca" = some claim := by
  have hkeeps : Along (fun coordinator op => op.Keeps sampleDelivery.reference coordinator)
      (HandoffOp.perform sampleIdentify "root" sampleDelivery) sampleHandoffs
      (Coordinator.reached sampleHistory) := by decide +kernel
  have hunattempted : ∀ row ∈ (Coordinator.reached sampleHistory).harness.values,
      row.seq ≠ sampleDelivery.reference.seq ∧
        row.messageId ≠ sampleDelivery.reference.messageId := by decide +kernel
  obtain ⟨-, hclaims, -⟩ := acceptance_and_attempts_commute sampleDelivery sampleIdentify "root"
    sampleDelivery_committed sampleHistory sampleHistory_unaccepted hunattempted sampleHandoffs
    hkeeps
  obtain ⟨claim, hget, -⟩ := hclaims (fun _ => 0) (fun _ _ => 0) (by simp [sampleHandoffs]) _
    List.mem_cons_self "a" .direct .full rfl
  exact ⟨hkeeps, claim, hget⟩

/-- A direct `record` replaces a settled attempt: its outcome changes, and the claim stays
delivered with no observation stored. -/
theorem record_replaces_settled :
    ((HandoffOp.handled sampleIdentify "root" sampleDelivery sampleHistory
        sampleHandoffs).harness.get? ("claude", "a", "m")).map HarnessDelivery.outcome =
          some .delivered ∧
    (HandoffOp.handled sampleIdentify "root" sampleDelivery sampleHistory (sampleHandoffs ++
        [.record (fun _ _ => 0) (sampleAttempt .emitted .unrecorded)])).harness.values =
          [sampleAttempt .emitted .unrecorded] ∧
    ((HandoffOp.handled sampleIdentify "root" sampleDelivery sampleHistory (sampleHandoffs ++
        [.record (fun _ _ => 0) (sampleAttempt .emitted .unrecorded)])).store.wakeClaims.get?
          "ca").map WakeAssignment.lifecycle = some (.delivered .full) := by
  refine ⟨?_, ?_, ?_⟩
  all_goals decide +kernel

end AgentComms.Coordination
