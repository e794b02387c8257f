import AgentComms.Maintenance.Barrier

/-!
# The barrier fails closed

What an operation may write is said once, from the record it read. Along every run the
witness is then in force for the last completed record, with or without its target, or it
is refused for good: the marker and the state cannot agree on a generation that was only
partly written, and a target stamped for another write applies to none.
-/

namespace AgentComms.Maintenance

open Library

variable {marker : MaintenanceMarker} {hold : MaintenanceState} {op : BarrierOp}
  {files : WitnessFiles} {last status : MaintenanceStatus} {dead : List MaintenanceOperator}

/-! ### What an operation writes -/

/-- The record written over a status: the next generation, under a nonce never used. -/
structure MaintenanceState.Follows (root : String) (world : MaintenanceRoot)
    (status : MaintenanceStatus) (hold : MaintenanceState) : Prop where
  root : hold.root = root
  generation : hold.generation = status.generation + 1
  nonce : hold.nonce = world.minted

inductive BarrierOp.Writes (dead : List MaintenanceOperator) :
    BarrierOp → MaintenanceStatus → MaintenanceState → Prop
  | taken {operator : MaintenanceOperator} {status : MaintenanceStatus} {hold : MaintenanceState}
      (hphase : hold.phase = .draining) : Writes dead (.begin operator) status hold
  | retargeted {expected hold : MaintenanceState} {interpreter : String}
      (hphase : hold.phase = .draining) :
      Writes dead (.retarget expected interpreter) (some expected) hold
  | advanced {expected hold : MaintenanceState} {phase : MaintenancePhase} :
      Writes dead (.advance expected phase) (some expected) hold
  | cleared {expected hold : MaintenanceState} :
      Writes dead (.clear expected) (some expected) hold
  | released {op : BarrierOp} {recorded hold : MaintenanceState}
      (hheld : recorded.phase.isReady = false) (hdead : recorded.operator ∈ dead)
      (hphase : hold.phase = .deadHolderReleased)
      (hop : ∀ expected, op = .releaseDead expected → expected = recorded) :
      Writes dead op (some recorded) hold

theorem MaintenanceMarker.make_eq_ok {root : String} {generation : Nat}
    (hok : MaintenanceMarker.make root generation = .ok marker) :
    marker.root = root ∧ marker.generation = generation := by
  unfold MaintenanceMarker.make at hok
  split at hok
  · cases hok
    exact ⟨rfl, rfl⟩
  · cases hok

open MaintenanceState (withoutTarget requireMarker)

theorem MaintenanceState.advanced_eq_ok {state : MaintenanceState} {nonce : Nat}
    {phase : MaintenancePhase} {target : MaintenanceTarget}
    (hok : state.advanced nonce phase target = .ok hold) :
    hold.generation = state.generation + 1 ∧ hold.nonce = nonce ∧ hold.phase = phase := by
  simp only [MaintenanceState.advanced, do_eq_ok] at hok
  obtain ⟨marker, hmarker, rfl⟩ := hok
  exact ⟨(MaintenanceMarker.make_eq_ok hmarker).2, rfl, rfl⟩

namespace MaintenanceBarrier

variable {root : String} {world : MaintenanceRoot} {hold : MaintenanceState}
  {expected : MaintenanceState} {outcome : Outcome}

theorem checked_eq_ok {held : MaintenanceState} :
    checked root hold = .ok held ↔ hold.root = root ∧ hold = held := by
  simp only [checked, requireMarker, do_eq_ok]
  simp

theorem follows_of_advanced {state made : MaintenanceState} {phase : MaintenancePhase}
    {target : MaintenanceTarget} (hmade : state.advanced world.minted phase target = .ok made)
    (hchecked : checked root made = .ok hold) :
    hold.Follows root world (some state) ∧ hold.phase = phase := by
  obtain ⟨hroot, rfl⟩ := checked_eq_ok.mp hchecked
  obtain ⟨hgeneration, hnonce, hphase⟩ := MaintenanceState.advanced_eq_ok hmade
  exact ⟨⟨hroot, hgeneration, hnonce⟩, hphase⟩

theorem releaseDeadUnlocked_writes (hok : releaseDeadUnlocked root world expected = .ok outcome)
    (hhold : outcome.hold = some hold) :
    readWitness root world.files = .ok (some expected) ∧
      hold.Follows root world (some expected) ∧ hold.phase = .deadHolderReleased := by
  simp only [releaseDeadUnlocked, bind_eq_ok] at hok
  obtain ⟨current, hread, hok⟩ := hok
  split at hok
  · cases hok
    cases hhold
  next hcurrent =>
    simp only [do_eq_ok] at hok
    obtain ⟨made, hmade, held, hchecked, rfl⟩ := hok
    cases hhold
    rw [not_not.mp hcurrent] at hread
    exact ⟨hread, follows_of_advanced hmade hchecked⟩

/-- An observation goes on with a status whose holder is alive, or releases the recorded
holder and raises. -/
theorem withCurrent_writes {body : MaintenanceStatus → Checked Outcome}
    (hok : withCurrent root world body = .ok outcome) (hhold : outcome.hold = some hold) :
    ∃ status, readWitness root world.files = .ok status ∧
      (body status = .ok outcome ∨
        ∃ recorded, status = some recorded ∧ recorded.phase.isReady = false ∧
          recorded.operator ∈ world.dead ∧ hold.Follows root world status ∧
          hold.phase = .deadHolderReleased) := by
  simp only [withCurrent, bind_eq_ok] at hok
  obtain ⟨status, hread, seen, hseen, hok⟩ := hok
  refine ⟨status, hread, ?_⟩
  cases status with
  | none =>
    cases hseen
    exact .inl hok
  | some state =>
    simp only [observed] at hseen
    split at hseen
    next hdead =>
      simp only [MaintenanceStatus.holderDead, Bool.and_eq_true, Bool.not_eq_true',
        decide_eq_true_eq] at hdead
      cases seen with
      | returned =>
        -- the locked read is the one just made
        simp only [releaseDeadUnlocked, bind_eq_ok] at hseen
        obtain ⟨again, hagain, hseen⟩ := hseen
        rw [hread] at hagain
        cases hagain
        rw [if_neg (by simp)] at hseen
        simp only [do_eq_ok] at hseen
        obtain ⟨_, _, _, _, habsurd⟩ := hseen
        cases habsurd
      | wrote made | released made =>
        cases hok
        obtain ⟨-, hfollows, hphase⟩ := releaseDeadUnlocked_writes hseen hhold
        exact .inr ⟨state, rfl, hdead.1, hdead.2, hfollows, hphase⟩
    · cases hseen
      exact .inl hok

theorem advance_writes {phase : MaintenancePhase}
    (hok : advance root world expected phase = .ok outcome) (hhold : outcome.hold = some hold) :
    ∃ status, readWitness root world.files = .ok status ∧ hold.Follows root world status ∧
      (status = some expected ∨
        ∃ recorded, status = some recorded ∧ recorded.phase.isReady = false ∧
          recorded.operator ∈ world.dead ∧ hold.phase = .deadHolderReleased) := by
  obtain ⟨status, hread, hbody | ⟨recorded, hstatus, hheld, hdead, hfollows, hphase⟩⟩ :=
    withCurrent_writes hok hhold
  · simp only [MaintenanceState.successor, do_eq_ok] at hbody
    obtain ⟨-, hstatus, made, ⟨-, -, hmade⟩, held, hchecked, rfl⟩ := hbody
    cases hhold
    refine ⟨status, hread, ?_, .inl hstatus⟩
    rw [hstatus]
    exact (follows_of_advanced hmade hchecked).1
  · exact ⟨status, hread, hfollows, .inr ⟨recorded, hstatus, hheld, hdead, hphase⟩⟩

end MaintenanceBarrier

open MaintenanceBarrier

variable {root : String} {world : MaintenanceRoot}

theorem BarrierOp.hold_writes (hhold : op.hold root world = some hold) :
    ∃ status, readWitness root world.files = .ok status ∧ hold.Follows root world status ∧
      op.Writes world.dead status hold := by
  unfold BarrierOp.hold at hhold
  split at hhold
  next outcome hok =>
    cases op with
    | «begin» operator =>
      simp only [perform, MaintenanceBarrier.begin, do_eq_ok] at hok
      obtain ⟨status, hread, -, -, marker, hmarker, held, hchecked, rfl⟩ := hok
      obtain ⟨hroot, rfl⟩ := checked_eq_ok.mp hchecked
      cases hhold
      exact ⟨status, hread, ⟨hroot, (MaintenanceMarker.make_eq_ok hmarker).2, rfl⟩, .taken rfl⟩
    | retarget =>
      simp only [perform, MaintenanceBarrier.retarget, MaintenanceState.requireDraining,
        do_eq_ok] at hok
      obtain ⟨-, hdraining, hok⟩ := hok
      obtain ⟨status, hread, hbody | ⟨recorded, rfl, hheld, hdead, hfollows, hphase⟩⟩ :=
        withCurrent_writes hok hhold
      · simp only [do_eq_ok] at hbody
        obtain ⟨-, rfl, made, hmade, held, hchecked, rfl⟩ := hbody
        cases hhold
        obtain ⟨hfollows, hphase⟩ := follows_of_advanced hmade hchecked
        exact ⟨_, hread, hfollows, .retargeted (hphase.trans hdraining)⟩
      · exact ⟨_, hread, hfollows, .released hheld hdead hphase (by simp)⟩
    | advance =>
      obtain ⟨status, hread, hfollows, rfl | ⟨recorded, rfl, hheld, hdead, hphase⟩⟩ :=
        advance_writes hok hhold
      · exact ⟨_, hread, hfollows, .advanced⟩
      · exact ⟨_, hread, hfollows, .released hheld hdead hphase (by simp)⟩
    | clear =>
      simp only [perform, MaintenanceBarrier.clear, bind_eq_ok] at hok
      obtain ⟨-, -, hok⟩ := hok
      obtain ⟨status, hread, hfollows, rfl | ⟨recorded, rfl, hheld, hdead, hphase⟩⟩ :=
        advance_writes hok hhold
      · exact ⟨_, hread, hfollows, .cleared⟩
      · exact ⟨_, hread, hfollows, .released hheld hdead hphase (by simp)⟩
    | releaseDead =>
      simp only [perform, observed] at hok
      split at hok
      next hdead =>
        simp only [MaintenanceStatus.holderDead, Bool.and_eq_true, Bool.not_eq_true',
          decide_eq_true_eq] at hdead
        obtain ⟨hread, hfollows, hphase⟩ := releaseDeadUnlocked_writes hok hhold
        refine ⟨_, hread, hfollows, .released hdead.1 hdead.2 hphase ?_⟩
        intro other hother
        cases hother
        rfl
      · cases hok
        cases hhold
  · cases hhold

/-! ### The witness over a run -/

/-- The files of the last completed record: its marker and state, and a target stamped for
it or for another write. Before any record the marker and the state are absent. -/
def InForce (root : String) (files : WitnessFiles) : MaintenanceStatus → Prop
  | none => files.marker = none ∧ files.state = none
  | some last => files.marker = some last.toMaintenanceMarker ∧
      files.state = some last.withoutTarget ∧ last.root = root ∧
      (files.target = some ⟨last.generation, last.nonce, last.target⟩ ∨
        ∀ held, files.target = some held → held.nonce ≠ last.nonce)

def Refuses (root : String) (files : WitnessFiles) : Prop :=
  ∀ status, readWitness root files ≠ .ok status

structure Consistent (root : String) (world : MaintenanceRoot) : Prop where
  completed : world.completed.Pairwise fun later earlier =>
    earlier.generation < later.generation ∧ earlier.nonce < later.nonce
  minted : ∀ record ∈ world.completed, record.nonce < world.minted
  stamped : ∀ held, world.files.target = some held → held.nonce < world.minted
  witness : InForce root world.files world.completed.head? ∨ Refuses root world.files

/-- A target that was stamped for another write leaves the record without one. -/
theorem InForce.read_untargeted (hforce : InForce root files last)
    (htarget : ∀ held, files.target = some held →
      ∀ state, last = some state → held.nonce ≠ state.nonce) :
    readWitness root files = .ok (last.map withoutTarget) := by
  cases last with
  | none =>
    obtain ⟨hmarker, hstate⟩ := hforce
    simp [readWitness, hmarker, hstate]
  | some last =>
    obtain ⟨hmarker, hstate, hroot, -⟩ := hforce
    have hchecked : last.withoutTarget.requireMarker last.toMaintenanceMarker root =
        .ok last.withoutTarget := by
      simp [requireMarker, withoutTarget, require, hroot]
    simp only [readWitness, hmarker, hstate, hchecked]
    cases hfile : files.target with
    | none => rfl
    | some held =>
      have hstamp := htarget held hfile last rfl
      simp [HoldTarget.appliedTo, withoutTarget, hstamp]

theorem InForce.read (hforce : InForce root files last) :
    readWitness root files = .ok last ∨
      readWitness root files = .ok (last.map withoutTarget) := by
  cases last with
  | none =>
    right
    apply hforce.read_untargeted
    intro held _ state hstate
    cases hstate
  | some =>
    rcases hforce.2.2.2 with htarget | htarget
    · left
      obtain ⟨hmarker, hstate, hroot, -⟩ := hforce
      simp [readWitness, hmarker, hstate, htarget, requireMarker, require,
        HoldTarget.appliedTo, withoutTarget, hroot]
    · right
      apply hforce.read_untargeted
      intro held hheld state hstate
      cases hstate
      exact htarget held hheld

@[simp] theorem generation_withoutTarget (status : MaintenanceStatus) :
    MaintenanceStatus.generation (status.map withoutTarget) =
      status.generation := by
  cases status <;> rfl

/-- A read that succeeds is of the last completed record. -/
theorem Consistent.inForce (hconsistent : Consistent root world)
    (hread : readWitness root world.files = .ok status) :
    InForce root world.files world.completed.head? ∧
      (status = world.completed.head? ∨
        status = world.completed.head?.map withoutTarget) := by
  rcases hconsistent.witness with hforce | hrefuses
  · refine ⟨hforce, ?_⟩
    rcases hforce.read with hlast | hlast
    · rw [hread] at hlast
      exact .inl (Except.ok.inj hlast)
    · rw [hread] at hlast
      exact .inr (Except.ok.inj hlast)
  · exact absurd hread (hrefuses status)

theorem Consistent.generation_le (hconsistent : Consistent root world)
    {record : MaintenanceState} (hrecord : record ∈ world.completed) :
    record.generation ≤ MaintenanceStatus.generation world.completed.head? := by
  have hordered := hconsistent.completed
  cases hcompleted : world.completed with
  | nil =>
    rw [hcompleted] at hrecord
    cases hrecord
  | cons =>
    rw [hcompleted] at hrecord hordered
    rcases List.mem_cons.mp hrecord with rfl | hearlier
    · exact Nat.le_refl _
    · exact Nat.le_of_lt ((List.pairwise_cons.mp hordered).1 record hearlier).1

/-! The files after each prefix of the writes. -/

section Prefixes

variable (world) (hold : MaintenanceState)

theorem write_three (more : Nat) : (world.write hold (more + 3)).files =
    { marker := some hold.toMaintenanceMarker
      state := some hold.withoutTarget
      target := some ⟨hold.generation, hold.nonce, hold.target⟩ } := by
  have hall : hold.writes.take (more + 3) = hold.writes :=
    List.take_of_length_le (by simp [MaintenanceState.writes])
  simp only [MaintenanceRoot.write, hall]
  rfl

end Prefixes

/-- A target stamped for the next write applies to no completed record. -/
theorem InForce.stamped {held : HoldTarget} (hforce : InForce root files last)
    (hfresh : ∀ state, last = some state → held.nonce ≠ state.nonce) :
    InForce root { files with target := some held } last := by
  cases last with
  | none => exact hforce
  | some state =>
    obtain ⟨hmarker, hstate, hroot, -⟩ := hforce
    refine ⟨hmarker, hstate, hroot, .inr ?_⟩
    intro other hother
    cases hother
    exact hfresh state rfl

/-- A marker of another generation refuses with the state of the last completed record. -/
theorem InForce.refuses {target : Option HoldTarget} (hforce : InForce root files last)
    (hmarker : marker.generation ≠ last.generation) :
    Refuses root { marker := some marker, state := files.state, target := target } := by
  intro status hread
  cases last with
  | none => simp [readWitness, hforce.2] at hread
  | some =>
    simp only [readWitness, hforce.2.1, requireMarker, do_eq_ok] at hread
    obtain ⟨-, ⟨-, ⟨-, hgeneration, -⟩, -⟩, -⟩ := hread
    exact hmarker hgeneration

/-- A record that follows the status read follows the last completed record. -/
theorem Consistent.follows (hconsistent : Consistent root world)
    (hread : readWitness root world.files = .ok status) (hfollows : hold.Follows root world status)
    :
    hold.generation = MaintenanceStatus.generation world.completed.head? + 1 ∧
      ∀ state, world.completed.head? = some state → hold.nonce ≠ state.nonce := by
  constructor
  · rw [hfollows.generation]
    rcases (hconsistent.inForce hread).2 with rfl | rfl
    · rfl
    · rw [generation_withoutTarget]
  · intro state hstate
    have hminted := hconsistent.minted state (List.mem_of_head? hstate)
    have hnonce := hfollows.nonce
    omega

theorem Consistent.write (hconsistent : Consistent root world)
    (hread : readWitness root world.files = .ok status) (hfollows : hold.Follows root world status)
    (writes : Nat) : Consistent root (world.write hold writes) := by
  obtain ⟨hforce, -⟩ := hconsistent.inForce hread
  obtain ⟨hgeneration, hfresh⟩ := hconsistent.follows hread hfollows
  have hnonce := hfollows.nonce
  have hminted := fun record hrecord => Nat.lt_succ_of_lt (hconsistent.minted record hrecord)
  have hstamped : ∀ held : HoldTarget, some ⟨hold.generation, hold.nonce, hold.target⟩ = some held →
      held.nonce < world.minted + 1 := by
    intro held hheld
    cases hheld
    exact hnonce ▸ Nat.lt_succ_self _
  match writes with
  | 0 =>
    refine ⟨hconsistent.completed, hminted, ?_, .inl hforce⟩
    intro held hheld
    exact Nat.lt_succ_of_lt (hconsistent.stamped held hheld)
  | 1 => exact ⟨hconsistent.completed, hminted, hstamped, .inl (hforce.stamped hfresh)⟩
  | 2 => exact ⟨hconsistent.completed, hminted, hstamped, .inr (hforce.refuses (by omega))⟩
  | more + 3 =>
    have hcompleted : (world.write hold (more + 3)).completed = hold :: world.completed := by
      simp [MaintenanceRoot.write]
    refine ⟨?_, ?_, by rw [write_three]; exact hstamped, ?_⟩
    · rw [hcompleted, List.pairwise_cons]
      refine ⟨?_, hconsistent.completed⟩
      intro record hrecord
      have hle := hconsistent.generation_le hrecord
      have hminted := hconsistent.minted record hrecord
      exact ⟨by omega, by omega⟩
    · rw [hcompleted]
      intro record hrecord
      rcases List.mem_cons.mp hrecord with rfl | hearlier
      · exact hnonce ▸ Nat.lt_succ_self _
      · exact hminted record hearlier
    · rw [write_three, hcompleted]
      exact .inl ⟨rfl, rfl, hfollows.root, .inl rfl⟩

theorem Consistent.step (hconsistent : Consistent root world) (event : BarrierEvent) :
    Consistent root (world.step root event) := by
  cases event with
  | call op writes =>
    simp only [MaintenanceRoot.step]
    cases hhold : op.hold root world with
    | none => exact hconsistent
    | some =>
      obtain ⟨status, hread, hfollows, -⟩ := BarrierOp.hold_writes hhold
      exact hconsistent.write hread hfollows writes
  | exit => exact { hconsistent with }

theorem Consistent.run (events : List BarrierEvent) (hconsistent : Consistent root world) :
    Consistent root (events.foldl (MaintenanceRoot.step root) world) := by
  induction events generalizing world with
  | nil => exact hconsistent
  | cons event events ih => exact ih (hconsistent.step event)

theorem consistent_start (root : String) : Consistent root MaintenanceRoot.start := by
  refine ⟨List.Pairwise.nil, ?_, ?_, .inl ⟨rfl, rfl⟩⟩
  · intro record hrecord
    cases hrecord
  · intro held hheld
    cases hheld

theorem consistent_reached (root : String) (events : List BarrierEvent) :
    Consistent root (MaintenanceRoot.reached root events) :=
  (consistent_start root).run events

/-- Files that refuse stay as they are: every operation reads them first. -/
theorem Refuses.run (events : List BarrierEvent) (hrefuses : Refuses root world.files) :
    Refuses root (events.foldl (MaintenanceRoot.step root) world).files := by
  induction events generalizing world with
  | nil => exact hrefuses
  | cons event events ih =>
    apply ih
    cases event with
    | call op =>
      simp only [MaintenanceRoot.step]
      cases hhold : op.hold root world with
      | none => exact hrefuses
      | some =>
        obtain ⟨status, hread, -⟩ := BarrierOp.hold_writes hhold
        exact absurd hread (hrefuses status)
    | exit => exact hrefuses

/-! ### Checks -/

/-- While the last completed record is held, only its holder passes a check. -/
theorem Consistent.allowInput (hconsistent : Consistent root world) {last : MaintenanceState}
    {earlier : List MaintenanceState} {holder : MaintenanceHolder}
    (hcompleted : world.completed = last :: earlier) (hheld : last.phase.isReady = false)
    (hok : MaintenanceBarrier.allowInput root world holder = .ok status) :
    holder = .claim last.nonce := by
  simp only [MaintenanceBarrier.allowInput, bind_eq_ok] at hok
  obtain ⟨read, hread, _, hopen, -⟩ := hok
  have hlast : ∃ state, read = some state ∧ state.phase = last.phase ∧
      state.nonce = last.nonce := by
    obtain ⟨-, hread⟩ := hconsistent.inForce hread
    rw [hcompleted] at hread
    rcases hread with rfl | rfl
    · exact ⟨last, rfl, rfl, rfl⟩
    · exact ⟨last.withoutTarget, rfl, rfl, rfl⟩
  obtain ⟨state, rfl, hphase, hnonce⟩ := hlast
  unfold MaintenanceStatus.requireOpenTo at hopen
  dsimp only at hopen
  split at hopen
  next hholds =>
    cases holder with
    | noHolder => cases hholds
    | claim nonce =>
      have hsame : state.nonce = nonce := of_decide_eq_true hholds
      rw [← hnonce, hsame]
  · -- the phase is not open
    have hready : state.phase.isReady = true := require_eq_ok.mp hopen
    rw [hphase, hheld] at hready
    cases hready

theorem Refuses.allowInput (hrefuses : Refuses root world.files) (holder : MaintenanceHolder) :
    ∃ error, MaintenanceBarrier.allowInput root world holder = .error error := by
  cases hresult : MaintenanceBarrier.allowInput root world holder with
  | error error => exact ⟨error, rfl⟩
  | ok =>
    simp only [MaintenanceBarrier.allowInput, bind_eq_ok] at hresult
    obtain ⟨read, hread, -⟩ := hresult
    exact absurd hread (hrefuses read)

/-- A record that opens the root replaces the expected record, or one whose operator is
dead. -/
theorem BarrierOp.Writes.ready (hwrites : op.Writes dead status hold)
    (hready : hold.phase.isReady = true) :
    (∃ expected, (op = .clear expected ∨ ∃ phase, op = .advance expected phase) ∧
      status = some expected) ∨
    ∃ recorded, status = some recorded ∧ recorded.operator ∈ dead := by
  cases hwrites with
  | taken hphase | retargeted hphase =>
    rw [hphase] at hready
    cases hready
  | @advanced expected _ phase => exact .inl ⟨expected, .inr ⟨phase, rfl⟩, rfl⟩
  | @cleared expected => exact .inl ⟨expected, .inl rfl, rfl⟩
  | @released _ recorded _ _ hdead => exact .inr ⟨recorded, rfl, hdead⟩

/-- With a stale expected record only the release of a dead holder is written. -/
theorem BarrierOp.Writes.stale {expected : MaintenanceState} (hwrites : op.Writes dead status hold)
    (hexpected : op.expected = some expected) (hstale : status ≠ some expected) :
    ∃ recorded, status = some recorded ∧ recorded.phase.isReady = false ∧
      recorded.operator ∈ dead ∧ hold.phase = .deadHolderReleased ∧
      op ≠ .releaseDead expected := by
  cases hwrites with
  | taken => cases hexpected
  | retargeted | advanced | cleared =>
    cases hexpected
    exact absurd rfl hstale
  | @released _ recorded _ hheld hdead hphase hop =>
    refine ⟨recorded, rfl, hheld, hdead, hphase, ?_⟩
    intro hrelease
    rw [hop expected hrelease] at hstale
    exact hstale rfl

/-- A write that stops early leaves the previous record in force, or files that refuse. -/
theorem Consistent.stopped (hconsistent : Consistent root world)
    (hread : readWitness root world.files = .ok status) (hfollows : hold.Follows root world status)
    {writes : Nat} (hstopped : writes < 3) :
    writes = 0 ∧ readWitness root (world.write hold writes).files = .ok status ∨
      writes = 1 ∧ readWitness root (world.write hold writes).files =
        .ok (status.map withoutTarget) ∨
      writes = 2 ∧ Refuses root (world.write hold writes).files := by
  obtain ⟨hforce, hstatus⟩ := hconsistent.inForce hread
  obtain ⟨hgeneration, hfresh⟩ := hconsistent.follows hread hfollows
  match writes, hstopped with
  | 0, _ => exact .inl ⟨rfl, hread⟩
  | 1, _ =>
    refine .inr (.inl ⟨rfl, ?_⟩)
    have hlast : status.map withoutTarget =
        world.completed.head?.map withoutTarget := by
      rcases hstatus with rfl | rfl
      · rfl
      · rw [Option.map_map]
        rfl
    rw [hlast]
    apply (hforce.stamped hfresh).read_untargeted
    intro held hheld
    cases hheld
    exact hfresh
  | 2, _ => exact .inr (.inr ⟨rfl, hforce.refuses (by omega)⟩)

/-- Along every run, whatever prefix of its writes an operation leaves: while the last
completed record is held only its holder passes a check; a record that opens the root
replaces the expected record or one whose operator is dead; generations grow and
nonces differ; a stale expected record lets an operation write only the release of a
dead holder; and a partial write keeps the previous record, at most without its
target, or refuses every check from then on. -/
theorem barrier_fails_closed (root : String) (events : List BarrierEvent) :
    let world := MaintenanceRoot.reached root events
    (∀ last earlier holder status, world.completed = last :: earlier →
      last.phase.isReady = false →
      MaintenanceBarrier.allowInput root world holder = .ok status →
        holder = .claim last.nonce) ∧
    (∀ (op : BarrierOp) hold, op.hold root world = some hold → hold.phase.isReady = true →
      (∃ expected, (op = .clear expected ∨ ∃ phase, op = .advance expected phase) ∧
        readWitness root world.files = .ok (some expected)) ∨
      ∃ recorded, readWitness root world.files = .ok (some recorded) ∧
        recorded.operator ∈ world.dead) ∧
    (world.completed.Pairwise fun later earlier =>
      earlier.generation < later.generation ∧ earlier.nonce ≠ later.nonce) ∧
    (∀ (op : BarrierOp) expected writes, op.expected = some expected →
      readWitness root world.files ≠ .ok (some expected) →
        (world.step root (.call op writes)).files = world.files ∨
        ∃ recorded hold, readWitness root world.files = .ok (some recorded) ∧
          recorded.phase.isReady = false ∧ recorded.operator ∈ world.dead ∧
          op.hold root world = some hold ∧ hold.phase = .deadHolderReleased ∧
          op ≠ .releaseDead expected) ∧
    ∀ (op : BarrierOp) hold writes, op.hold root world = some hold → writes < 3 →
      let after := world.step root (.call op writes)
      (∃ status, readWitness root world.files = .ok status ∧
        (writes = 0 ∧ readWitness root after.files = .ok status ∨
          writes = 1 ∧ readWitness root after.files =
            .ok (status.map withoutTarget))) ∨
      writes = 2 ∧ ∀ (later : List BarrierEvent) holder,
        ∃ error, MaintenanceBarrier.allowInput root
          (later.foldl (MaintenanceRoot.step root) after) holder = .error error := by
  intro world
  have hconsistent : Consistent root world := consistent_reached root events
  refine ⟨?_, ?_, ?_, ?_, ?_⟩
  · intro last earlier holder status hcompleted hheld hok
    exact hconsistent.allowInput hcompleted hheld hok
  · intro op hold hhold hready
    obtain ⟨status, hread, -, hwrites⟩ := BarrierOp.hold_writes hhold
    rw [hread]
    rcases hwrites.ready hready with ⟨expected, hop, rfl⟩ | ⟨recorded, rfl, hdead⟩
    · exact .inl ⟨expected, hop, rfl⟩
    · exact .inr ⟨recorded, rfl, hdead⟩
  · apply hconsistent.completed.imp
    rintro later earlier ⟨hgeneration, hnonce⟩
    exact ⟨hgeneration, Nat.ne_of_lt hnonce⟩
  · intro op expected writes hexpected hstale
    simp only [MaintenanceRoot.step]
    cases hhold : op.hold root world with
    | none => exact .inl rfl
    | some hold =>
      obtain ⟨status, hread, -, hwrites⟩ := BarrierOp.hold_writes hhold
      rw [hread] at hstale
      have hother : status ≠ some expected := fun hsame => hstale (by rw [hsame])
      obtain ⟨recorded, rfl, hheld, hdead, hphase, hop⟩ := hwrites.stale hexpected hother
      exact .inr ⟨recorded, hold, hread, hheld, hdead, rfl, hphase, hop⟩
  · intro op hold writes hhold hstopped
    simp only [MaintenanceRoot.step, hhold]
    obtain ⟨status, hread, hfollows, -⟩ := BarrierOp.hold_writes hhold
    rcases hconsistent.stopped hread hfollows hstopped with hnone | htarget | ⟨hmarker, hrefuses⟩
    · exact .inl ⟨status, hread, .inl hnone⟩
    · exact .inl ⟨status, hread, .inr htarget⟩
    · exact .inr ⟨hmarker, fun later holder => (hrefuses.run later).allowInput holder⟩

/-- Two holds abandoned in turn: an advance that expects the first one releases the second. -/
theorem stale_advance_writes_release :
    let world := MaintenanceRoot.reached "/bus" [.call (.begin ⟨1, 1⟩) 3, .exit ⟨1, 1⟩,
      .call (.begin ⟨2, 2⟩) 3, .exit ⟨2, 2⟩]
    ∃ expected ∈ world.completed, readWitness "/bus" world.files ≠ .ok (some expected) ∧
      (world.step "/bus" (.call (.advance expected .paused) 3)).files ≠ world.files := by
  decide +kernel

end AgentComms.Maintenance
