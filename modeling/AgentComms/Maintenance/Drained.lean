import AgentComms.Maintenance.FailsClosed

/-!
# Writes of draining owners

Two checks read the status of the root: an operation enters only an open root or its own
hold, and a file that stopping owners settle takes their writes until the hold is given a
target. A hold with a target admits neither to other callers. Its target is the first file
a rewrite replaces and the state file keeps none, so a rewrite that stops behind that file
leaves the hold in force without a target, and the second check open to every caller.
-/

namespace AgentComms.Maintenance

open Library

/-- Draining owners settle their own turns until the hold is retargeted. -/
def MaintenanceTarget.requireDrainedWritesOpenTo (state : MaintenanceState)
    (holder : MaintenanceHolder) : MaintenanceTarget → Checked Unit
  | noTarget => .ok ()
  | runtime _ => MaintenanceStatus.requireOpenTo holder (some state)

def MaintenanceStatus.requireDrainedWritesOpenTo (holder : MaintenanceHolder) :
    MaintenanceStatus → Checked Unit
  | none => requireOpenTo holder none
  | some state => state.target.requireDrainedWritesOpenTo state holder

namespace MaintenanceBarrier

variable (root : String) (world : MaintenanceRoot)

/-- `current_unlocked`, and a check of the status it answers. -/
def assertCurrent (check : MaintenanceStatus → Checked Unit) : Checked Unit := do
  match ← withCurrent root world (fun status => pure (.returned status)) with
  | .returned status => check status
  | .wrote hold | .released hold => .error (.maintenanceHeld
      ("Maintenance released dead holder pid=" ++ toString hold.operator.pid ++ " start_time=" ++
        toString hold.operator.startTime ++ "; ingress reopened"))

def assertOpenUnlocked (holder : MaintenanceHolder) : Checked Unit :=
  assertCurrent root world (MaintenanceStatus.requireOpenTo holder)

def assertDrainedWritesOpenUnlocked (holder : MaintenanceHolder) : Checked Unit :=
  assertCurrent root world (MaintenanceStatus.requireDrainedWritesOpenTo holder)

def Shut (holder : MaintenanceHolder) : Prop :=
  (∃ error, assertOpenUnlocked root world holder = .error error) ∧
    ∃ error, assertDrainedWritesOpenUnlocked root world holder = .error error

end MaintenanceBarrier

def BarrierOp.Rewrites (hold : MaintenanceState) : BarrierOp → Prop
  | .retarget expected _ | .advance expected _ | .clear expected => expected = hold
  | .begin _ | .releaseDead _ => False

open MaintenanceBarrier

variable {root : String} {world : MaintenanceRoot} {hold made : MaintenanceState}
  {holder : MaintenanceHolder} {op : BarrierOp}

section Alive

variable (hread : readWitness root world.files = .ok (some hold))
  (halive : hold.operator ∉ world.dead)

include hread halive

theorem withCurrent_alive (body : MaintenanceStatus → Checked Outcome) :
    withCurrent root world body = body (some hold) := by
  have hobserved : observed root world (some hold) = .ok (.returned (some hold)) := by
    simp [observed, MaintenanceStatus.holderDead, halive]
  rw [withCurrent, hread]
  show (observed root world (some hold) >>= _) = _
  rw [hobserved]
  rfl

theorem assertCurrent_alive (check : MaintenanceStatus → Checked Unit) :
    assertCurrent root world check = check (some hold) := by
  rw [assertCurrent, withCurrent_alive hread halive]
  rfl

theorem advance_alive {phase : MaintenancePhase} {outcome : Outcome}
    (hok : advance root world hold phase = .ok outcome) :
    ∃ made, outcome = .wrote made ∧ made.root = root ∧
      hold.advanced world.minted phase (phase.targetAfter hold.target) = .ok made := by
  simp only [advance, withCurrent_alive hread halive, MaintenanceState.successor,
    MaintenanceState.inPhase, do_eq_ok] at hok
  obtain ⟨-, -, made, ⟨-, -, hmade⟩, held, hchecked, rfl⟩ := hok
  obtain ⟨hroot, rfl⟩ := checked_eq_ok.mp hchecked
  exact ⟨_, rfl, hroot, hmade⟩

/-- A rewrite keeps a target unless it opens the root. -/
theorem BarrierOp.Rewrites.written (hop : op.Rewrites hold)
    (hmade : op.hold root world = some made) :
    ∃ phase target, made.root = root ∧ hold.advanced world.minted phase target = .ok made ∧
      (hold.target ≠ .noTarget → phase.isReady = false → target ≠ .noTarget) := by
  have htarget : ∀ phase : MaintenancePhase, hold.target ≠ .noTarget → phase.isReady = false →
      phase.targetAfter hold.target ≠ .noTarget := by
    intro phase htarget hready
    rwa [MaintenancePhase.targetAfter, hready]
  unfold BarrierOp.hold at hmade
  split at hmade
  next outcome hok =>
    cases op with
    | retarget expected =>
      obtain rfl : expected = hold := hop
      simp only [perform, MaintenanceBarrier.retarget, withCurrent_alive hread halive,
        do_eq_ok] at hok
      obtain ⟨-, -, -, -, written, hadvanced, held, hchecked, rfl⟩ := hok
      cases hmade
      obtain ⟨hroot, rfl⟩ := checked_eq_ok.mp hchecked
      exact ⟨_, _, hroot, hadvanced, by simp⟩
    | advance expected phase =>
      obtain rfl : expected = hold := hop
      obtain ⟨written, rfl, hroot, hadvanced⟩ := advance_alive hread halive hok
      cases hmade
      exact ⟨_, _, hroot, hadvanced, htarget phase⟩
    | clear expected =>
      obtain rfl : expected = hold := hop
      simp only [perform, MaintenanceBarrier.clear, bind_eq_ok] at hok
      obtain ⟨-, -, hok⟩ := hok
      obtain ⟨written, rfl, hroot, hadvanced⟩ := advance_alive hread halive hok
      cases hmade
      exact ⟨_, _, hroot, hadvanced, htarget .ready⟩
    | «begin» | releaseDead => exact hop.elim
  · cases hmade

/-- A hold with a target refuses whoever does not hold its nonce. -/
theorem shut_of_target (hheld : hold.phase.isReady = false) (htarget : hold.target ≠ .noTarget)
    (hother : holder.holds hold.nonce = false) : Shut root world holder := by
  have hclosed : ∃ error, MaintenanceStatus.requireOpenTo holder (some hold) = .error error := by
    simp [MaintenanceStatus.requireOpenTo, hother, MaintenanceStatus.requireOpen, require,
      MaintenanceStatus.phase, hheld]
  rw [Shut, assertOpenUnlocked, assertDrainedWritesOpenUnlocked,
    assertCurrent_alive hread halive, assertCurrent_alive hread halive]
  refine ⟨hclosed, ?_⟩
  cases hcase : hold.target with
  | noTarget => exact absurd hcase htarget
  | runtime => simpa [MaintenanceStatus.requireDrainedWritesOpenTo, hcase,
      MaintenanceTarget.requireDrainedWritesOpenTo] using hclosed

end Alive

/-- Files that refuse admit nobody. -/
theorem Refuses.shut (hrefuses : Refuses root world.files) : Shut root world holder := by
  have herror : ∀ check, ∃ error, assertCurrent root world check = .error error := by
    intro check
    cases hread : readWitness root world.files with
    | error error => exact ⟨error, by rw [assertCurrent, withCurrent, hread]; rfl⟩
    | ok status => exact absurd hread (hrefuses status)
  exact ⟨herror _, herror _⟩

/-- The state file keeps the nonce of the status that is read. -/
theorem nonce_of_read {files : WitnessFiles} (hread : readWitness root files = .ok (some hold)) :
    ∃ state, files.state = some state ∧ state.nonce = hold.nonce := by
  unfold readWitness at hread
  split at hread
  · cases hread
  next marker state hmarker hstate =>
    simp only [MaintenanceState.requireMarker, do_eq_ok] at hread
    obtain ⟨_, ⟨-, -, rfl⟩, hread⟩ := hread
    refine ⟨_, hstate, ?_⟩
    cases hread
    split
    next held _ =>
      unfold HoldTarget.appliedTo
      split <;> rfl
    · rfl
  · cases hread

/-- A returned hold drains, for the runtime it was given. -/
theorem retarget_eq_wrote {expected : MaintenanceState} {interpreter : String}
    (hok : MaintenanceBarrier.retarget root world expected interpreter = .ok (.wrote hold)) :
    hold.phase = .draining ∧ hold.target = .runtime interpreter := by
  simp only [MaintenanceBarrier.retarget, MaintenanceState.requireDraining, withCurrent,
    do_eq_ok] at hok
  obtain ⟨-, hdraining, current, -, seen, hseen, hok⟩ := hok
  cases seen with
  | returned =>
    simp only [do_eq_ok, Outcome.wrote.injEq] at hok
    obtain ⟨-, -, made, hmade, held, hchecked, rfl⟩ := hok
    obtain ⟨-, rfl⟩ := checked_eq_ok.mp hchecked
    simp only [MaintenanceState.advanced, do_eq_ok] at hmade
    obtain ⟨_, -, rfl⟩ := hmade
    exact ⟨hdraining, rfl⟩
  | released => cases hok
  | wrote =>
    -- an observation writes nothing but a release
    unfold observed at hseen
    split at hseen
    · split at hseen
      · simp only [releaseDeadUnlocked, bind_eq_ok] at hseen
        obtain ⟨_, -, hseen⟩ := hseen
        split at hseen
        · cases hseen
        · simp only [do_eq_ok] at hseen
          obtain ⟨_, -, _, -, hseen⟩ := hseen
          cases hseen
      · cases hseen
    · cases hseen

theorem read_of_complete (more : Nat) (hroot : made.root = root) :
    readWitness root (world.write made (more + 3)).files = .ok (some made) := by
  rw [write_three, ← hroot]
  simp [readWitness, MaintenanceState.requireMarker, MaintenanceState.withoutTarget,
    HoldTarget.appliedTo, require]

/-- A rewrite of a hold that `retarget` returned, stopped after any number of its file writes
and before it opens the root, leaves every caller without the recorded nonce refused by
both checks exactly when it does not stop behind its first file. -/
theorem interrupted_rewrite_shut_iff (root : String) (events later : List BarrierEvent)
    {world : MaintenanceRoot} {expected hold made : MaintenanceState} {interpreter : String}
    (hreturned : BarrierOp.perform root (.reached root events) (.retarget expected interpreter) =
      .ok (.wrote hold))
    (hworld : world = .reached root
      (events ++ .call (.retarget expected interpreter) 3 :: later))
    (hcurrent : readWitness root world.files = .ok (some hold))
    (halive : hold.operator ∉ world.dead) {op : BarrierOp} (hop : op.Rewrites hold)
    (hmade : op.hold root world = some made) (writes : Nat)
    (hclosed : 3 ≤ writes → made.phase.isReady = false) :
    let after := world.step root (.call op writes)
    (∀ holder : MaintenanceHolder,
      (∀ state ∈ after.files.state, holder.holds state.nonce = false) →
        Shut root after holder) ↔ writes ≠ 1 := by
  obtain ⟨hdraining, htarget⟩ := retarget_eq_wrote hreturned
  have hheld : hold.phase.isReady = false := by rw [hdraining]; rfl
  have hnamed : hold.target ≠ .noTarget := by rw [htarget]; exact nofun
  obtain ⟨phase, target, hroot, hadvanced, hkeeps⟩ := hop.written hcurrent halive hmade
  obtain ⟨hgeneration, hnonce, hphase⟩ := MaintenanceState.advanced_eq_ok hadvanced
  have hconsistent : Consistent root world := hworld ▸ consistent_reached root _
  have hstep : world.step root (.call op writes) = world.write made writes := by
    simp only [MaintenanceRoot.step, hmade]
  rw [hstep]
  intro after
  -- what is read afterwards decides, by how many files were replaced
  have hshut : ∀ {state : MaintenanceState}, readWitness root after.files = .ok (some state) →
      state.operator = hold.operator → state.phase.isReady = false →
      state.target ≠ .noTarget → ∀ holder : MaintenanceHolder,
      (∀ stored ∈ after.files.state, holder.holds stored.nonce = false) →
        Shut root after holder := by
    intro state hread hoperator hheld hnamed holder hother
    obtain ⟨stored, hstored, hsame⟩ := nonce_of_read hread
    have halive' : state.operator ∉ after.dead := hoperator ▸ halive
    exact shut_of_target hread halive' hheld hnamed (hsame ▸ hother stored hstored)
  by_cases hstopped : writes < 3
  · rcases hconsistent.stopped hcurrent ⟨hroot, hgeneration, hnonce⟩ hstopped with
      ⟨rfl, hread⟩ | ⟨rfl, hread⟩ | ⟨rfl, hrefuses⟩
    · exact iff_of_true (hshut hread rfl hheld hnamed) (by decide)
    · refine iff_of_false (fun hall => ?_) (by decide)
      obtain ⟨-, error, herror⟩ := hall .noHolder (fun _ _ => rfl)
      have halive' : hold.withoutTarget.operator ∉ after.dead := halive
      rw [assertDrainedWritesOpenUnlocked, assertCurrent_alive hread halive'] at herror
      cases herror
    · exact iff_of_true (fun _ _ => hrefuses.shut) (by decide)
  · obtain ⟨more, rfl⟩ : ∃ more, writes = more + 3 := ⟨writes - 3, by omega⟩
    have hready := hclosed (by omega)
    simp only [MaintenanceState.advanced, do_eq_ok] at hadvanced
    obtain ⟨marker, -, rfl⟩ := hadvanced
    exact iff_of_true (hshut (read_of_complete more hroot) rfl hready (hkeeps hnamed hready))
      (by omega)

/-- The first hold of a root, and the record that gives it a target. -/
def begunHold : MaintenanceState := ⟨⟨"/bus", 1, by decide⟩, ⟨1, 1⟩, 0, .draining, .noTarget⟩

def retargetedHold : MaintenanceState :=
  ⟨⟨"/bus", 2, by decide⟩, ⟨1, 1⟩, 1, .draining, .runtime "new"⟩

theorem interrupted_rewrite_shut_iff_clear :
    let after := (MaintenanceRoot.reached "/bus"
      [.call (.begin ⟨1, 1⟩) 3, .call (.retarget begunHold "new") 3]).step "/bus"
        (.call (.clear retargetedHold) 2)
    ∀ holder : MaintenanceHolder,
      (∀ state ∈ after.files.state, holder.holds state.nonce = false) →
        Shut "/bus" after holder := by
  have hreturned : BarrierOp.perform "/bus" (.reached "/bus" [.call (.begin ⟨1, 1⟩) 3])
      (.retarget begunHold "new") = .ok (.wrote retargetedHold) := by decide +kernel
  have hop : BarrierOp.Rewrites retargetedHold (.clear retargetedHold) := rfl
  exact (interrupted_rewrite_shut_iff "/bus" _ [] hreturned rfl (by decide +kernel)
    (by decide +kernel) hop rfl 2 (by decide)).mpr (by decide)

/-- The interrupted rewrite of the hold opens the drained writes it refused before. -/
theorem interrupted_retarget_opens_drained_writes :
    let world := MaintenanceRoot.reached "/bus"
      [.call (.begin ⟨1, 1⟩) 3, .call (.retarget begunHold "new") 3]
    let after := world.step "/bus" (.call (.retarget retargetedHold "newer") 1)
    readWitness "/bus" world.files = .ok (some retargetedHold) ∧
      retargetedHold.operator ∉ after.dead ∧
      assertDrainedWritesOpenUnlocked "/bus" world .noHolder ≠ .ok () ∧
      assertDrainedWritesOpenUnlocked "/bus" after .noHolder = .ok () := by
  decide +kernel

end AgentComms.Maintenance
