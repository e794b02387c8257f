import AgentComms.Goals.Attempts

/-!
# What a transaction does to the ledger

A transaction changes the row of one goal and at most one attempt. `Move` says how: it
renews a row that names no attempt, reserves a ready row, or settles the attempt a row
names. From the three moves follow the joint invariant of generations and attempts and
what the ledger keeps for good.
-/

namespace AgentComms.Goals

open Library

/-! ### Inversion -/

namespace Ledger

variable {ledger : Ledger} {goalId : String} {refusal : AttemptError} {current : Generation}
  {record : AttemptRecord}

@[simp] theorem requireReady_eq_ok {number : Nat} {digest : Nat} :
    ledger.requireReady goalId number refusal = .ok (current, digest) ↔
      ledger.generations.get? goalId = some current ∧ current.number = number ∧
        current.lifecycle = .ready digest := by
  simp only [requireReady, do_eq_ok]
  constructor
  · rintro ⟨row, hrow, -, hnumber, hready⟩
    split at hready
    next own hown =>
      cases hready
      exact ⟨hrow, hnumber, hown⟩
    · cases hready
  · rintro ⟨hrow, hnumber, hready⟩
    exact ⟨current, hrow, (), hnumber, by rw [hready]; rfl⟩

@[simp] theorem heldBy_eq_ok {reservation : Reservation} :
    ledger.heldBy reservation refusal = .ok (current, record) ↔
      ledger.attempts.get? reservation.attemptId = some record ∧
        record.reservation = reservation ∧
        ledger.generations.get? reservation.goalId = some current ∧
        current.number = reservation.generation ∧
        current.lifecycle = .reserved reservation.attemptId := by
  simp only [heldBy, reservedBy, do_eq_ok]
  constructor
  · rintro ⟨_, ⟨found, hfound, -, hreservation, rfl⟩, row, hrow, -, hheld, rfl, rfl⟩
    exact ⟨hfound, hreservation, hrow, hheld⟩
  · rintro ⟨hfound, hreservation, hrow, hheld⟩
    exact ⟨record, ⟨record, hfound, (), hreservation, rfl⟩, current, hrow, (), hheld, rfl, rfl⟩

@[simp] theorem requireCurrent_eq_ok {reservation : Reservation} {phase : GoalAttemptPhase} :
    ledger.requireCurrent reservation phase = .ok (current, record) ↔
      ledger.attempts.get? reservation.attemptId = some record ∧
        record.reservation = reservation ∧
        ledger.generations.get? reservation.goalId = some current ∧
        current.number = reservation.generation ∧
        current.lifecycle = .reserved reservation.attemptId ∧ record.phase = phase := by
  simp only [requireCurrent, do_eq_ok, Prod.exists, heldBy_eq_ok]
  constructor
  · rintro ⟨row, found, ⟨hfound, hreservation, hrow, hnumber, hstate⟩, -, hphase, rfl, rfl⟩
    exact ⟨hfound, hreservation, hrow, hnumber, hstate, hphase⟩
  · rintro ⟨hfound, hreservation, hrow, hnumber, hstate, hphase⟩
    exact ⟨current, record, ⟨hfound, hreservation, hrow, hnumber, hstate⟩, (), hphase, rfl, rfl⟩

@[simp] theorem identified_eq_ok {generation attemptId : Nat} :
    ledger.identified goalId generation attemptId refusal = .ok record ↔
      ledger.attempts.get? attemptId = some record ∧ record.reservation.goalId = goalId ∧
        record.reservation.generation = generation ∧
        record.reservation.attemptId = attemptId := by
  simp only [identified, do_eq_ok]
  constructor
  · rintro ⟨found, hfound, -, hidentity, rfl⟩
    exact ⟨hfound, hidentity⟩
  · rintro ⟨hfound, hidentity⟩
    exact ⟨record, hfound, (), hidentity, rfl⟩

variable {after : Ledger}

@[simp] theorem advanceAttempt_eq_ok {phase : GoalAttemptPhase} {progressWitness : Option String}
    {resolution : AttemptResolution} :
    ledger.advanceAttempt record phase progressWitness resolution = .ok after ↔
      record.phase.mayBecome phase = true ∧
        ledger.updateAttempt record.reservation.attemptId phase progressWitness resolution =
          after := by
  simp only [advanceAttempt, do_eq_ok, exists_const]

@[simp] theorem advanceGeneration_eq_ok {successor : Generation} :
    ledger.advanceGeneration goalId current successor = .ok after ↔
      current.lifecycle.mayBecome successor.lifecycle = true ∧
        ledger.putGeneration goalId successor = after := by
  simp only [advanceGeneration, do_eq_ok, exists_const]

theorem claimDecision_eq_ok {row : GoalWorkDecision} (hok : ledger.claimDecision row = .ok after) :
    (∀ other ∈ ledger.decisions, (row.goalId, row.decision) ≠ (other.goalId, other.decision)) ∧
      after.generations = ledger.generations ∧ after.attempts = ledger.attempts ∧
      after.decisions = row :: ledger.decisions := by
  unfold claimDecision at hok
  split at hok
  next hunused =>
    cases hok
    exact ⟨hunused, rfl, rfl, rfl⟩
  · cases hok

/-! Reading rows after a write. -/

@[simp] theorem attempts_putGeneration (goalId : String) (generation : Generation) :
    (ledger.putGeneration goalId generation).attempts = ledger.attempts := rfl

@[simp] theorem generations_updateAttempt (attemptId : Nat) (phase : GoalAttemptPhase)
    (progressWitness : Option String) (resolution : AttemptResolution) :
    (ledger.updateAttempt attemptId phase progressWitness resolution).generations =
      ledger.generations := rfl

theorem get?_putGeneration (goalId : String) (generation : Generation) (other : String) :
    (ledger.putGeneration goalId generation).generations.get? other =
      if other = goalId then some generation else ledger.generations.get? other :=
  Dict.get?_set _ _ _ _

theorem get?_updateAttempt {attemptId : Nat}
    (hrecord : ledger.attempts.get? attemptId = some record) (phase : GoalAttemptPhase)
    (progressWitness : Option String) (resolution : AttemptResolution) (other : Nat) :
    (ledger.updateAttempt attemptId phase progressWitness resolution).attempts.get? other =
      if other = attemptId then
        some { record with
          phase := phase
          progressWitness := progressWitness
          resolution := resolution }
      else ledger.attempts.get? other := by
  simp only [updateAttempt, Dict.get?_mapValues]
  split
  next hother =>
    rw [hother, hrecord]
    simp
  next hother =>
    cases ledger.attempts.get? other with
    | none => rfl
    | some => simp

end Ledger

/-! ### Moves -/

/-- The phases of the attempt a generation names. -/
def GenerationState.fits (phase : GoalAttemptPhase) : GenerationState → Bool
  | ready _ => false
  | reserved _ => phase.open_
  | blocked _ => phase = .failed
  | completed _ => phase = .succeeded
  | cancelled _ => phase = .resolved

theorem GenerationState.attemptId_of_isReady {state : GenerationState}
    (hready : state.isReady = true) : state.attemptId = none := by
  cases state with
  | ready => rfl
  | reserved own | blocked own | completed own | cancelled own => cases hready

theorem GenerationState.terminal_of_isReady {state : GenerationState}
    (hready : state.isReady = true) : state.terminal = false := by
  cases state with
  | ready => rfl
  | reserved own | blocked own | completed own | cancelled own => cases hready

/-- How the attempts change with the row of `goalId`, which becomes `next`. -/
inductive Move (before after : Ledger) (goalId : String) (next : Generation) : Prop
  | renewed (hrow : ∀ current, before.generations.get? goalId = some current →
        current.lifecycle.isReady = true ∧ current.number ≤ next.number)
      (hnext : next.lifecycle.attemptId = none) (hattempts : after.attempts = before.attempts)
  | reserved {current : Generation} {record : AttemptRecord}
      (hrow : before.generations.get? goalId = some current)
      (hready : current.lifecycle.isReady = true) (hnumber : next.number = current.number)
      (hnext : next.lifecycle = .reserved record.reservation.attemptId)
      (hfresh : before.attempts.get? record.reservation.attemptId = none)
      (hgoal : record.reservation.goalId = goalId)
      (hgeneration : record.reservation.generation = current.number)
      (hphase : record.phase = .reserved)
      (hattempts : ∀ id, after.attempts.get? id =
        if id = record.reservation.attemptId then some record else before.attempts.get? id)
  | settled {current : Generation} {attemptId : Nat} {record ended : AttemptRecord}
      (hrow : before.generations.get? goalId = some current)
      (hlive : current.lifecycle.terminal = false)
      (hnamed : current.lifecycle.attemptId = some attemptId)
      (hrecord : before.attempts.get? attemptId = some record)
      (hgoal : record.reservation.goalId = goalId)
      (hgeneration : record.reservation.generation = current.number)
      (hended : ended.reservation = record.reservation)
      (hphase : record.phase.mayBecome ended.phase = true)
      (hnext : next.number = current.number ∧ next.lifecycle.attemptId = some attemptId ∧
          next.lifecycle.fits ended.phase = true ∨
        next.number = current.number + 1 ∧ next.lifecycle.isReady = true ∧
          ended.phase.open_ = false)
      (hattempts : ∀ id, after.attempts.get? id =
        if id = attemptId then some ended else before.attempts.get? id)

def Change.goalId : Change → String
  | createGoal goalId | recoverUnreservedReady goalId _ | authorizeReadyRecovery goalId _ _
  | authorizeRetry goalId _ _ _ | retireGoal goalId _ _ => goalId
  | reserve reservation _ | claimLaunch reservation | advanceReady reservation _ _ _
  | recordVerifiedCompletion reservation _ | fail reservation _ => reservation.goalId

def Change.decision : Change → Option GoalWorkDecision
  | authorizeReadyRecovery goalId expectedGeneration decision
  | authorizeRetry goalId expectedGeneration _ decision =>
    some ⟨goalId, decision, expectedGeneration⟩
  | _ => none

/-- The effect of a committed transaction: one row is written, ready exactly when the
transaction grants it; its attempt moves along; and a decision is used at most once. -/
structure Change.Effect (call : Nat) (change : Change) (before after : Ledger)
    (next : Generation) : Prop where
  rows : ∀ goalId, after.generations.get? goalId =
    if goalId = change.goalId then some next else before.generations.get? goalId
  ready : change.readyGeneration = some (change.goalId, next.number) ∧
      next.lifecycle = .ready call ∨
    change.readyGeneration = none ∧ next.lifecycle.isReady = false
  move : Move before after change.goalId next
  decisions : match change.decision with
    | some row => (∀ other ∈ before.decisions,
        (row.goalId, row.decision) ≠ (other.goalId, other.decision)) ∧
        after.decisions = row :: before.decisions
    | none => after.decisions = before.decisions

namespace Ledger

variable {before after : Ledger} {call : Nat} {goalId : String} {number : Nat}
  {reservation : Reservation} {progressWitness : Option String} {resolution : AttemptResolution}

theorem createGoal_effect (hok : before.createGoal goalId call = .ok after) :
    ∃ next, (Change.createGoal goalId).Effect call before after next := by
  simp only [createGoal, do_eq_ok] at hok
  obtain ⟨-, hnone, rfl⟩ := hok
  refine ⟨_, get?_putGeneration _ _, .inl ⟨rfl, rfl⟩, .renewed ?_ rfl rfl, rfl⟩
  intro current hrow
  change before.generations.get? goalId = some current at hrow
  rw [hnone] at hrow
  cases hrow

theorem recoverUnreservedReady_effect
    (hok : before.recoverUnreservedReady goalId number call = .ok after) :
    ∃ next, (Change.recoverUnreservedReady goalId number).Effect call before after next := by
  simp only [recoverUnreservedReady, bind_eq_ok, Prod.exists, requireReady_eq_ok,
    advanceGeneration_eq_ok] at hok
  obtain ⟨current, digest, ⟨hrow, rfl, hready⟩, -, rfl⟩ := hok
  refine ⟨_, get?_putGeneration _ _, .inl ⟨rfl, rfl⟩, .renewed ?_ rfl rfl, rfl⟩
  intro found hfound
  cases hrow.symm.trans hfound
  exact ⟨by rw [hready]; rfl, Nat.le_refl _⟩

theorem authorizeReadyRecovery_effect {decision : WorkDecision}
    (hok : before.authorizeReadyRecovery goalId number decision call = .ok after) :
    ∃ next, (Change.authorizeReadyRecovery goalId number decision).Effect call before after
      next := by
  simp only [authorizeReadyRecovery, bind_eq_ok, Prod.exists, requireReady_eq_ok,
    advanceGeneration_eq_ok] at hok
  obtain ⟨current, digest, ⟨hrow, rfl, hready⟩, claimed, hclaimed, -, rfl⟩ := hok
  obtain ⟨hunused, hgenerations, hattempts, hdecisions⟩ := claimDecision_eq_ok hclaimed
  refine ⟨current.following call, ?_, .inl ⟨rfl, rfl⟩, .renewed ?_ rfl hattempts, hunused, hdecisions⟩
  · intro other
    rw [get?_putGeneration, hgenerations]
    rfl
  · intro found hfound
    cases hrow.symm.trans hfound
    exact ⟨by rw [hready]; rfl, Nat.le_succ _⟩

theorem reserve_effect {digest : Nat} (hok : before.reserve reservation digest = .ok after) :
    ∃ next, (Change.reserve reservation digest).Effect call before after next := by
  simp only [reserve, do_eq_ok, Prod.exists, requireReady_eq_ok, advanceGeneration_eq_ok] at hok
  obtain ⟨current, own, ⟨hrow, hnumber, hready⟩, -, -, inserted, hinserted, -, rfl⟩ := hok
  unfold insertAttempt at hinserted
  split at hinserted
  next hfresh =>
    cases hinserted
    refine ⟨current.becomes (.reserved reservation.attemptId), ?_, .inr ⟨rfl, rfl⟩,
      .reserved hrow (by rw [hready]; rfl) rfl rfl hfresh.1 rfl hnumber.symm rfl ?_, rfl⟩
    · intro other
      rw [get?_putGeneration]
      rfl
    · intro id
      rw [attempts_putGeneration, Dict.get?_set]
  · cases hinserted

theorem claimLaunch_effect (hok : before.claimLaunch reservation = .ok after) :
    ∃ next, (Change.claimLaunch reservation).Effect call before after next := by
  simp only [claimLaunch, bind_eq_ok, Prod.exists, requireCurrent_eq_ok,
    advanceAttempt_eq_ok] at hok
  obtain ⟨current, record, ⟨hrecord, rfl, hrow, hnumber, hstate, hreserved⟩, hphase, rfl⟩ := hok
  refine ⟨current, ?_, .inr ⟨rfl, by rw [hstate]; rfl⟩, ?_, rfl⟩
  · -- the row stays as it is
    intro other
    split
    next hother => rw [hother]; exact hrow
    · rfl
  · refine .settled hrow (by rw [hstate]; rfl) (by rw [hstate]; rfl) hrecord rfl hnumber.symm ?_
      ?_ ?_ (get?_updateAttempt hrecord _ _ _)
    · rfl
    · exact hphase
    · exact .inl ⟨rfl, by rw [hstate]; rfl, by rw [hstate]; rfl⟩

theorem advanceReady_effect {phase : GoalAttemptPhase}
    (hok : before.advanceReady reservation phase progressWitness resolution call = .ok after) :
    ∃ next, (Change.advanceReady reservation phase progressWitness resolution).Effect call before
      after next := by
  simp only [advanceReady, bind_eq_ok, Prod.exists, requireCurrent_eq_ok, advanceAttempt_eq_ok,
    advanceGeneration_eq_ok] at hok
  obtain ⟨current, record, ⟨hrecord, rfl, hrow, hnumber, hstate, hclaimed⟩, ended,
    ⟨hphase, rfl⟩, -, rfl⟩ := hok
  have hclosed : phase.open_ = false := by
    rw [hclaimed] at hphase
    cases phase with
    | reserved | claimed => cases hphase
    | failed | succeeded | resolved => rfl
  refine ⟨current.following call, get?_putGeneration _ _, .inl ⟨?_, rfl⟩, ?_, rfl⟩
  · simp only [Change.readyGeneration, Change.goalId, Generation.following, hnumber]
  · refine .settled hrow (by rw [hstate]; rfl) (by rw [hstate]; rfl) hrecord rfl hnumber.symm ?_
      ?_ ?_ (get?_updateAttempt hrecord _ _ _)
    · rfl
    · exact hphase
    · exact .inr ⟨rfl, rfl, hclosed⟩

theorem recordVerifiedCompletion_effect {witness : String}
    (hok : before.recordVerifiedCompletion reservation witness = .ok after) :
    ∃ next, (Change.recordVerifiedCompletion reservation witness).Effect call before after
      next := by
  simp only [recordVerifiedCompletion, bind_eq_ok, Prod.exists, requireCurrent_eq_ok,
    advanceAttempt_eq_ok, advanceGeneration_eq_ok] at hok
  obtain ⟨current, record, ⟨hrecord, rfl, hrow, hnumber, hstate, -⟩, ended, ⟨hphase, rfl⟩, -,
    rfl⟩ := hok
  refine ⟨_, get?_putGeneration _ _, .inr ⟨rfl, rfl⟩, ?_, rfl⟩
  refine .settled hrow (by rw [hstate]; rfl) (by rw [hstate]; rfl) hrecord rfl hnumber.symm ?_
    ?_ ?_ (get?_updateAttempt hrecord _ _ _)
  · rfl
  · exact hphase
  · exact .inl ⟨rfl, rfl, rfl⟩

theorem fail_effect {diagnostic : AttemptResolution}
    (hok : before.fail reservation diagnostic = .ok after) :
    ∃ next, (Change.fail reservation diagnostic).Effect call before after next := by
  simp only [fail, do_eq_ok, Prod.exists, heldBy_eq_ok, advanceAttempt_eq_ok,
    advanceGeneration_eq_ok] at hok
  obtain ⟨current, record, ⟨hrecord, rfl, hrow, hnumber, hstate⟩, -, -, ended, ⟨hphase, rfl⟩, -,
    rfl⟩ := hok
  refine ⟨_, get?_putGeneration _ _, .inr ⟨rfl, rfl⟩, ?_, rfl⟩
  refine .settled hrow (by rw [hstate]; rfl) (by rw [hstate]; rfl) hrecord rfl hnumber.symm ?_
    ?_ ?_ (get?_updateAttempt hrecord _ _ _)
  · rfl
  · exact hphase
  · exact .inl ⟨rfl, rfl, rfl⟩

theorem authorizeRetry_effect {attemptId : Nat} {decision : WorkDecision}
    (hok : before.authorizeRetry goalId number attemptId decision call = .ok after) :
    ∃ next, (Change.authorizeRetry goalId number attemptId decision).Effect call before after
      next := by
  simp only [authorizeRetry, GoalAttemptPhase.requireRetryable, do_eq_ok, identified_eq_ok,
    advanceAttempt_eq_ok, advanceGeneration_eq_ok] at hok
  obtain ⟨current, hrow, -, ⟨rfl, hstate⟩, record, ⟨hrecord, hgoal, hgeneration, rfl⟩, -, hfailed,
    claimed, hclaimed, ended, ⟨hphase, rfl⟩, -, rfl⟩ := hok
  obtain ⟨hunused, hgenerations, hattempts, hdecisions⟩ := claimDecision_eq_ok hclaimed
  refine ⟨current.following call, ?_, .inl ⟨rfl, rfl⟩, ?_, hunused, hdecisions⟩
  · intro other
    rw [get?_putGeneration, generations_updateAttempt, hgenerations]
    rfl
  · have hupdated := get?_updateAttempt (hattempts ▸ hrecord) .resolved none (.decided decision)
    rw [hattempts] at hupdated
    refine .settled hrow (by rw [hstate]; rfl) (by rw [hstate]; rfl) hrecord hgoal hgeneration ?_
      ?_ ?_ hupdated
    · rfl
    · exact hphase
    · exact .inr ⟨rfl, rfl, rfl⟩

theorem retireGoal_effect {attemptId : Option Nat}
    (hok : before.retireGoal goalId number attemptId = .ok after) :
    ∃ next, (Change.retireGoal goalId number attemptId).Effect call before after next := by
  simp only [retireGoal, do_eq_ok, advanceGeneration_eq_ok] at hok
  obtain ⟨current, hrow, -, ⟨rfl, hnamed⟩, retired, hretired, -, rfl⟩ := hok
  cases attemptId with
  | none =>
    simp only [retireAttempt, do_eq_ok] at hretired
    obtain ⟨-, hready, rfl⟩ := hretired
    refine ⟨_, get?_putGeneration _ _, .inr ⟨rfl, rfl⟩, .renewed ?_ rfl rfl, rfl⟩
    intro found hfound
    cases hrow.symm.trans hfound
    exact ⟨hready, Nat.le_refl _⟩
  | some =>
    simp only [retireAttempt, do_eq_ok, identified_eq_ok, advanceAttempt_eq_ok] at hretired
    obtain ⟨record, ⟨hrecord, hgoal, hgeneration, rfl⟩, -, hpermits, hphase, rfl⟩ := hretired
    have hlive : current.lifecycle.terminal = false := by
      cases hstate : current.lifecycle with
      | completed own | cancelled own =>
        rw [hstate] at hpermits
        cases hpermits
      | ready digest | reserved own | blocked own => rfl
    refine ⟨_, get?_putGeneration _ _, .inr ⟨rfl, rfl⟩, ?_, rfl⟩
    refine .settled hrow hlive hnamed hrecord hgoal hgeneration ?_ ?_ ?_
      (get?_updateAttempt hrecord _ _ _)
    · rfl
    · exact hphase
    · exact .inl ⟨rfl, rfl, rfl⟩

end Ledger

theorem Change.write_effect {change : Change} {call : Nat} {before after : Ledger}
    (hok : change.write call before = .ok after) :
    ∃ next, change.Effect call before after next := by
  cases change with
  | createGoal => exact Ledger.createGoal_effect hok
  | recoverUnreservedReady => exact Ledger.recoverUnreservedReady_effect hok
  | reserve => exact Ledger.reserve_effect hok
  | claimLaunch => exact Ledger.claimLaunch_effect hok
  | advanceReady =>
    exact Ledger.advanceReady_effect hok
  | recordVerifiedCompletion =>
    exact Ledger.recordVerifiedCompletion_effect hok
  | fail => exact Ledger.fail_effect hok
  | authorizeReadyRecovery =>
    exact Ledger.authorizeReadyRecovery_effect hok
  | authorizeRetry => exact Ledger.authorizeRetry_effect hok
  | retireGoal => exact Ledger.retireGoal_effect hok

/-! ### Generations and their attempts -/

/-- A generation names an attempt of its own number in a fitting phase, and an attempt is
named by its generation until a later one replaces it, closed by then. -/
structure Ledger.Coupled (ledger : Ledger) : Prop where
  named : ∀ goalId row attemptId, ledger.generations.get? goalId = some row →
    row.lifecycle.attemptId = some attemptId →
    ∃ record, ledger.attempts.get? attemptId = some record ∧
      record.reservation.goalId = goalId ∧ record.reservation.generation = row.number ∧
      row.lifecycle.fits record.phase = true
  recorded : ∀ id record, ledger.attempts.get? id = some record →
    ∃ row, ledger.generations.get? record.reservation.goalId = some row ∧
      (record.reservation.generation = row.number ∧ row.lifecycle.attemptId = some id ∨
        record.reservation.generation < row.number ∧ record.phase.open_ = false)

structure Ledger.Keeps (before after : Ledger) : Prop where
  generation : ∀ goalId row, before.generations.get? goalId = some row →
    ∃ later, after.generations.get? goalId = some later ∧ row.number ≤ later.number ∧
      (row.lifecycle.terminal = true → later = row)
  attempt : ∀ id record, before.attempts.get? id = some record →
    ∃ later, after.attempts.get? id = some later ∧ later.reservation = record.reservation ∧
      (record.phase = .succeeded ∨ record.phase = .resolved → later = record) ∧
      (record.phase ≠ .reserved → later.phase ≠ .reserved)
  decision : ∀ row ∈ before.decisions, row ∈ after.decisions

namespace Ledger.Keeps

variable {before middle after : Ledger}

theorem refl (ledger : Ledger) : ledger.Keeps ledger where
  generation := fun _ row hrow => ⟨row, hrow, Nat.le_refl _, fun _ => rfl⟩
  attempt := fun _ record hrecord => ⟨record, hrecord, rfl, fun _ => rfl, fun hphase => hphase⟩
  decision := fun _ hrow => hrow

theorem trans (hfirst : before.Keeps middle) (hrest : middle.Keeps after) : before.Keeps after where
  generation := by
    intro goalId row hrow
    obtain ⟨between, hbetween, hle, hterminal⟩ := hfirst.generation goalId row hrow
    obtain ⟨later, hlater, hle', hterminal'⟩ := hrest.generation goalId between hbetween
    refine ⟨later, hlater, Nat.le_trans hle hle', ?_⟩
    intro hend
    have hsame := hterminal hend
    subst hsame
    exact hterminal' hend
  attempt := by
    intro id record hrecord
    obtain ⟨between, hbetween, hheld, hend, hphase⟩ := hfirst.attempt id record hrecord
    obtain ⟨later, hlater, hheld', hend', hphase'⟩ := hrest.attempt id between hbetween
    refine ⟨later, hlater, hheld'.trans hheld, ?_, fun hopen => hphase' (hphase hopen)⟩
    intro hterminal
    have hsame := hend hterminal
    subst hsame
    exact hend' hterminal
  decision := fun row hrow => hrest.decision row (hfirst.decision row hrow)

end Ledger.Keeps

namespace Change.Effect

variable {call : Nat} {change : Change} {before after : Ledger} {next : Generation}

/-- The written row is coupled with the attempts of its own goal, and no other attempt moves. -/
theorem coupled_of_own (heffect : change.Effect call before after next) (hcoupled : before.Coupled)
    (hforeign : ∀ id record, record.reservation.goalId ≠ change.goalId →
      (after.attempts.get? id = some record ↔ before.attempts.get? id = some record))
    (hnamed : ∀ id, next.lifecycle.attemptId = some id → ∃ record,
      after.attempts.get? id = some record ∧ record.reservation.goalId = change.goalId ∧
        record.reservation.generation = next.number ∧ next.lifecycle.fits record.phase = true)
    (hrecorded : ∀ id record, after.attempts.get? id = some record →
      record.reservation.goalId = change.goalId →
        record.reservation.generation = next.number ∧ next.lifecycle.attemptId = some id ∨
          record.reservation.generation < next.number ∧ record.phase.open_ = false) :
    after.Coupled := by
  constructor
  · intro goalId row attemptId hget hid
    rw [heffect.rows] at hget
    split at hget
    next hgoal =>
      cases hget
      rw [hgoal]
      exact hnamed attemptId hid
    next hgoal =>
      obtain ⟨record, hrecord, hown, hrest⟩ := hcoupled.named goalId row attemptId hget hid
      exact ⟨record, (hforeign _ _ (hown ▸ hgoal)).mpr hrecord, hown, hrest⟩
  · intro id record hget
    rw [heffect.rows]
    split
    next hgoal => exact ⟨next, rfl, hrecorded id record hget hgoal⟩
    next hgoal => exact hcoupled.recorded id record ((hforeign _ _ hgoal).mp hget)

theorem coupled (heffect : change.Effect call before after next) (hcoupled : before.Coupled) :
    after.Coupled := by
  -- the attempts of a ready row belong to earlier generations
  have hearlier : ∀ current id record, before.generations.get? change.goalId = some current →
      current.lifecycle.isReady = true → before.attempts.get? id = some record →
      record.reservation.goalId = change.goalId →
        record.reservation.generation < current.number ∧ record.phase.open_ = false := by
    intro current id record hrow hready hget hgoal
    obtain ⟨row, hfound, hcase⟩ := hcoupled.recorded id record hget
    rw [hgoal] at hfound
    cases hrow.symm.trans hfound
    rw [GenerationState.attemptId_of_isReady hready] at hcase
    exact hcase.resolve_left (by simp)
  cases heffect.move with
  | renewed hrow hnext hattempts =>
    refine coupled_of_own heffect hcoupled (by simp [hattempts]) (by simp [hnext]) ?_
    intro id record hget hgoal
    rw [hattempts] at hget
    obtain ⟨row, hfound, -⟩ := hcoupled.recorded id record hget
    rw [hgoal] at hfound
    obtain ⟨hready, hle⟩ := hrow row hfound
    obtain ⟨hlt, hclosed⟩ := hearlier row id record hfound hready hget hgoal
    exact .inr ⟨Nat.lt_of_lt_of_le hlt hle, hclosed⟩
  | @reserved current fresh hrow hready hnumber hnext hfresh hgoal hgeneration hphase hattempts =>
    refine coupled_of_own heffect hcoupled ?_ ?_ ?_
    · intro id record hother
      rw [hattempts]
      grind
    · intro id hid
      rw [hnext] at hid ⊢
      cases hid
      exact ⟨fresh, by rw [hattempts, if_pos rfl], hgoal, by rw [hgeneration, hnumber],
        by rw [hphase]; rfl⟩
    · intro id record hget hown
      rw [hattempts] at hget
      split at hget
      next hid =>
        cases hget
        exact .inl ⟨by rw [hgeneration, hnumber], by rw [hnext, hid]; rfl⟩
      · exact .inr (hnumber ▸ hearlier current id record hrow hready hget hown)
  | @settled current attemptId record ended hrow hlive hnamed hrecord hgoal hgeneration hended
      hphase hnext hattempts =>
    refine coupled_of_own heffect hcoupled ?_ ?_ ?_
    · intro id found hother
      rw [hattempts]
      grind
    · intro id hid
      rcases hnext with ⟨hnumber, hnames, hfits⟩ | ⟨-, hready, -⟩
      · cases hnames.symm.trans hid
        exact ⟨ended, by rw [hattempts, if_pos rfl], by rw [hended, hgoal],
          by rw [hended, hgeneration, hnumber], hfits⟩
      · rw [GenerationState.attemptId_of_isReady hready] at hid
        cases hid
    · intro id found hget hown
      rw [hattempts] at hget
      split at hget
      next hid =>
        cases hget
        rw [hended, hgeneration, hid]
        exact hnext.imp (fun h => ⟨h.1.symm, h.2.1⟩) fun h => ⟨by omega, h.2.2⟩
      next hid =>
        obtain ⟨row, hfound, hcase⟩ := hcoupled.recorded id found hget
        rw [hown] at hfound
        cases hrow.symm.trans hfound
        -- the row names the attempt that was settled
        have hearly := hcase.resolve_left fun h => hid (Option.some.inj (h.2.symm.trans hnamed))
        exact .inr ⟨by omega, hearly.2⟩

theorem keeps (heffect : change.Effect call before after next) : before.Keeps after := by
  -- the written row is neither terminal nor replaced by a smaller number
  have hrows : (∀ current, before.generations.get? change.goalId = some current →
      current.number ≤ next.number ∧ current.lifecycle.terminal = false) →
      ∀ goalId row, before.generations.get? goalId = some row →
        ∃ later, after.generations.get? goalId = some later ∧ row.number ≤ later.number ∧
          (row.lifecycle.terminal = true → later = row) := by
    intro hcurrent goalId row hrow
    rw [heffect.rows]
    split
    next hgoal =>
      rw [hgoal] at hrow
      obtain ⟨hle, hlive⟩ := hcurrent row hrow
      refine ⟨next, rfl, hle, ?_⟩
      intro hterminal
      rw [hlive] at hterminal
      cases hterminal
    · exact ⟨row, hrow, Nat.le_refl _, fun _ => rfl⟩
  have hdecisions : ∀ row ∈ before.decisions, row ∈ after.decisions := by
    intro row hrow
    have hused := heffect.decisions
    split at hused
    · rw [hused.2]
      exact List.mem_cons_of_mem _ hrow
    · rw [hused]
      exact hrow
  cases heffect.move with
  | renewed hrow hnext hattempts =>
    refine ⟨hrows ?_, ?_, hdecisions⟩
    · intro current hcurrent
      obtain ⟨hready, hle⟩ := hrow current hcurrent
      exact ⟨hle, GenerationState.terminal_of_isReady hready⟩
    · intro id record hrecord
      rw [hattempts]
      exact ⟨record, hrecord, rfl, fun _ => rfl, fun hphase => hphase⟩
  | @reserved current fresh hrow hready hnumber hnext hfresh hgoal hgeneration hphase hattempts =>
    refine ⟨hrows ?_, ?_, hdecisions⟩
    · intro found hfound
      cases hrow.symm.trans hfound
      exact ⟨Nat.le_of_eq hnumber.symm, GenerationState.terminal_of_isReady hready⟩
    · intro id record hrecord
      refine ⟨record, ?_, rfl, fun _ => rfl, fun hphase => hphase⟩
      rw [hattempts, if_neg, hrecord]
      rintro rfl
      rw [hfresh] at hrecord
      cases hrecord
  | @settled current attemptId record ended hrow hlive hnamed hrecord hgoal hgeneration hended
      hphase hnext hattempts =>
    refine ⟨hrows ?_, ?_, hdecisions⟩
    · intro found hfound
      cases hrow.symm.trans hfound
      refine ⟨?_, hlive⟩
      rcases hnext with ⟨hnumber, -⟩ | ⟨hnumber, -⟩ <;> omega
    · intro id found hfound
      rw [hattempts]
      split
      next hid =>
        rw [hid, hrecord] at hfound
        cases hfound
        refine ⟨ended, rfl, hended, ?_, ?_⟩
        · rintro (hend | hend) <;> rw [hend] at hphase <;> cases hphase
        · intro _ hreserved
          rw [hreserved] at hphase
          cases hopen : record.phase <;> rw [hopen] at hphase <;> cases hphase
      · exact ⟨found, hfound, rfl, fun _ => rfl, fun hphase => hphase⟩

end Change.Effect

end AgentComms.Goals
