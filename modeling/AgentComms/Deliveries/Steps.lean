import AgentComms.Deliveries.World
import AgentComms.Coordination.Handoffs

/-!
# What one step does

Each step taken apart once: what it does to the claims, to the claims its processes hold,
and to the input rows.
-/

namespace AgentComms.Deliveries

open Library Coordination Inputs

variable {Digest : Type} {setting : Setting Digest}
  {world world' : World Digest} {owner : ThreadLookup} {key : InputKey} {phase : Phase}
  {item : Item} {clock : Clock}

/-! ### Sessions -/

namespace Session

theorem mem_of_item? {session : Session} (hitem : session.item? key phase = some item) :
    item ∈ session.items ∧ item.key = key ∧ item.phase = phase := by
  have hmatches := List.find?_some hitem
  rw [Bool.and_eq_true, beq_iff_eq, beq_iff_eq] at hmatches
  exact ⟨List.mem_of_find?_eq_some hitem, hmatches⟩

end Session

namespace World

theorem item_eq_ok (hok : world.item owner key phase = .ok item) :
    item ∈ (world.sessions owner).items ∧ item.key = key ∧ item.phase = phase :=
  Session.mem_of_item? (orRefuse_eq_ok.mp hok)

@[simp] theorem setSession_self (session : Session) :
    (world.setSession owner session).sessions owner = session := Function.update_self ..

theorem setSession_other {other : ThreadLookup} (session : Session) (hother : other ≠ owner) :
    (world.setSession owner session).sessions other = world.sessions other :=
  Function.update_of_ne hother ..

def Holds (world : World Digest) (owner : ThreadLookup) (claim : WakeAssignment) : Prop :=
  claim ∈ (world.sessions owner).reads ∨
    ∃ item ∈ (world.sessions owner).items, item.assignment = claim

end World

def Item.asks (item : Item) : Option AssignmentKind :=
  match item.phase with
  | .reserved => some .deferred
  | .paused | .retired => some item.assignment.lifecycle.mode.initialState.kind
  | .queued => some .delivered
  | .failing | .retiring => none

def DeliveryOp.handsIn (world : World Digest) : DeliveryOp → Option HarnessDelivery
  | .coordinate (.beginHarness _ attempt) | .coordinate (.recordHarness _ attempt) => some attempt
  | .coordinate (.applyHarness _ change attempt) =>
    (world.coordinator.harness.get? attempt.identity).map change
  | _ => none

def DeliveryOp.wakes : DeliveryOp → Bool
  | .coordinate write => write.wakes
  | _ => false

/-! ### Claims -/

inductive ClaimChange (world : World Digest) (op : DeliveryOp) : Coordinator → Prop
  | kept {coordinator : Coordinator}
      (hclaims : coordinator.store.wakeClaims = world.coordinator.store.wakeClaims)
      (hwrites : Writes none (fun _ => True) world.coordinator.store coordinator.store)
      (hrest : coordinator = { world.coordinator with store := coordinator.store }) :
      ClaimChange world op coordinator
  | accepted {coordinator : Coordinator}
      (heffect : Coordinator.AcceptanceEffect world.coordinator coordinator)
      (hwrites : Writes none (fun _ => True) world.coordinator.store coordinator.store) :
      ClaimChange world op coordinator
  | handed {coordinator : Coordinator} (attempt : HarnessDelivery)
      (hop : op.handsIn world = some attempt)
      (hin : Coordinator.HandedIn attempt world.coordinator coordinator) :
      ClaimChange world op coordinator
  | woken {coordinator : Coordinator} {write : CoordinatorOp} (hop : op = .coordinate write)
      (hwakes : op.wakes = true)
      (hperform : Coordinator.perform write world.coordinator = .ok coordinator) :
      ClaimChange world op coordinator
  | asked {owner : ThreadLookup} {item : Item} {disposition : AssignmentKind}
      {before after : WakeAssignment} {store : Store}
      (hitem : item ∈ (world.sessions owner).items) (hasks : item.asks = some disposition)
      (hrevision : before.revision = item.assignment.revision)
      (hstep : Store.Stepped world.coordinator.store item.assignment.assignmentId disposition
        before after store) :
      ClaimChange world op { world.coordinator with store }
  | recovered {clock : Clock} {owner : ThreadLookup} {rootId : String} {live : List InputKey}
      {claim after : WakeAssignment} {rest : List WakeAssignment} {store : Store}
      (hop : op = .recoverRestore clock owner)
      (hlock : (world.sessions owner).lock = .recovering rootId live (.settled (claim :: rest)))
      (hstep : Store.Stepped world.coordinator.store claim.assignmentId
        claim.lifecycle.mode.initialState.kind claim after store) :
      ClaimChange world op { world.coordinator with store }

namespace ClaimChange

variable {op : DeliveryOp} {coordinator : Coordinator}

theorem of_eq (hsame : coordinator = world.coordinator) : ClaimChange world op coordinator := by
  subst hsame
  exact .kept rfl (.refl _) rfl

theorem evolve (hchange : ClaimChange world op coordinator) :
    ClaimsEvolve world.coordinator.store coordinator.store := by
  cases hchange with
  | kept _ hwrites => exact .of_writes hwrites
  | accepted heffect => exact heffect.evolve
  | handed attempt hop hin => exact hin.effect.evolve
  | woken _ _ hperform => exact Coordinator.evolve_of_perform hperform
  | asked hitem hasks hrevision hstep | recovered hop hlock hstep => exact hstep.evolve

theorem of_perform (hdistinct : DistinctClaims world.coordinator.store.wakeClaims)
    {write : CoordinatorOp} (hok : Coordinator.perform write world.coordinator = .ok coordinator) :
    ClaimChange world (.coordinate write) coordinator := by
  cases write
  case base op =>
    cases op
    case register | commit =>
      simp only [Coordinator.perform, Coordinator.performBase, do_eq_ok] at hok
      obtain ⟨store, hperform, _, -, rfl⟩ := hok
      obtain ⟨⟨after, _⟩, hwrite, rfl⟩ := map_eq_ok.mp hperform
      have hkept : after.wakeClaims = world.coordinator.store.wakeClaims ∧
          Writes none (fun _ => True) world.coordinator.store after := by
        first | exact Store.register_writes hwrite | exact Store.commit_writes hwrite
      exact .kept hkept.1 hkept.2 rfl
    all_goals exact .woken rfl rfl hok
  case recordCohort =>
    obtain ⟨⟨_, _⟩, hrecord, rfl⟩ := map_eq_ok.mp hok
    exact .accepted (Coordinator.recordCohort_effect hdistinct hrecord)
      (Coordinator.recordCohort_writes hrecord)
  case beginHarness attempt =>
    obtain ⟨⟨_, _⟩, hbegin, rfl⟩ := map_eq_ok.mp hok
    exact .handed attempt rfl (Coordinator.beginHarness_handedIn hdistinct hbegin)
  case recordHarness attempt =>
    obtain ⟨⟨_, _⟩, hrecord, rfl⟩ := map_eq_ok.mp hok
    exact .handed attempt rfl
      (Coordinator.recordIn_handedIn hdistinct (Coordinator.writing_eq_ok.mp hrecord).1)
  case applyHarness change attempt =>
    obtain ⟨⟨_, _⟩, happly, rfl⟩ := map_eq_ok.mp hok
    rcases Coordinator.applyHarness_handedIn hdistinct happly with hsame | ⟨old, hget, hin⟩
    · exact .of_eq hsame
    · refine .handed (change old) ?_ hin
      rw [DeliveryOp.handsIn, hget, Option.map_some]
  all_goals exact .woken rfl rfl hok

end ClaimChange

namespace World

theorem onCoordinator_eq_ok {body : Coordinator → Except CoordinationError Coordinator}
    (hok : world.onCoordinator body = .ok world') :
    ∃ coordinator, body world.coordinator = .ok coordinator ∧
      world' = { world with coordinator } := by
  simp only [onCoordinator, do_eq_ok, mapError_eq_ok] at hok
  obtain ⟨coordinator, hbody, rfl⟩ := hok
  exact ⟨coordinator, hbody, rfl⟩

theorem recovery_eq_ok {rootId : String} {live : List InputKey} {recovery : Recovery}
    (hok : world.recovery owner = .ok (rootId, live, recovery)) :
    (world.sessions owner).lock = .recovering rootId live recovery := by
  unfold World.recovery at hok
  split at hok
  next hlock =>
    cases hok
    exact hlock
  · cases hok

theorem transition_stepped {assignmentId : AssignmentId} {disposition : AssignmentKind}
    {revision : Nat} {store : Store} {after : WakeAssignment}
    (hok : world.transition clock assignmentId disposition revision = .ok (store, after)) :
    (∃ before, before.revision = revision ∧
      Store.Stepped world.coordinator.store assignmentId disposition before after store) ∧
      store.ForeignKeys := by
  rw [transition, Store.transitionPreengagement] at hok
  obtain ⟨hstep, hkeys⟩ := Store.writing_eq_ok.mp hok
  exact ⟨Store.transitionIn_stepped hstep, hkeys⟩

/-- The claim captured by a restoration is the stored one, or nothing is written. -/
theorem restored_cases (world : World Digest) (clock : Clock) (captured : WakeAssignment) :
    world.restored clock captured = world.coordinator.store ∨
      ∃ after, Store.Stepped world.coordinator.store captured.assignmentId
        captured.lifecycle.mode.initialState.kind captured after
        (world.restored clock captured) := by
  unfold restored
  split
  case isFalse => exact .inl rfl
  case isTrue hstored =>
    split
    case h_2 => exact .inl rfl
    case h_1 store after hok =>
      obtain ⟨⟨before, -, hstep⟩, -⟩ := transition_stepped hok
      obtain rfl := Option.mem_unique hstep.stored hstored
      exact .inr ⟨after, hstep⟩

theorem restored_keys (world : World Digest) (clock : Clock) (captured : WakeAssignment)
    (hkeys : world.coordinator.store.ForeignKeys) :
    (world.restored clock captured).ForeignKeys := by
  unfold restored
  split
  · split
    next htransition => exact (transition_stepped htransition).2
    · exact hkeys
  · exact hkeys

end World

/-! ### Input rows -/

/-- What a stored row keeps, where `bound` are the keys that may be bound. -/
def RowsKept (bound : InputKey → Prop) (inputs inputs' : InputFile Digest) : Prop :=
  ∀ k row, inputs.lookup k = some row →
    ∃ row', inputs'.lookup k = some row' ∧ row'.toOriginal = row.toOriginal ∧
      (row.state ≠ .clearedUnsent → row'.state ≠ .clearedUnsent) ∧
      (row.state.binding = none → bound k ∨ row'.state.binding = none)

structure RowsMove (bound : InputKey → Prop) (inputs inputs' : InputFile Digest) :
    Prop where
  kept : RowsKept bound inputs inputs'
  known : ∀ {k row'}, inputs'.lookup k = some row' → ∃ row, inputs.lookup k = some row

namespace RowsMove

open InputDispositions InputDocument

variable {bound : InputKey → Prop} {inputs inputs' changed : InputFile Digest}
  {keys : List InputKey} {answer : InputFile Digest} {digest : String → Digest}

theorem refl (inputs : InputFile Digest) : RowsMove bound inputs inputs :=
  ⟨fun _ row hrow => ⟨row, hrow, rfl, id, .inr⟩, fun {_ row} hrow => ⟨row, hrow⟩⟩

theorem of_transition
    {change : InputAttempt InputOrigin Digest → Except InputError (InputTransition Digest)}
    (hmoves : ∀ k ∈ keys, ∀ row state, change (some row) = .ok (.moved state) →
      (row.state ≠ .clearedUnsent → state ≠ .clearedUnsent) ∧
        (row.state.binding = none → bound k ∨ state.binding = none))
    (hok : (inputs.select (keyIn keys)).transition keys change = .ok changed) :
    RowsMove bound inputs (write inputs changed) := by
  simp only [transition, bind_eq_ok, make_eq_ok] at hok
  obtain ⟨rows, hrows, hchanged⟩ := hok
  constructor
  · intro k row hrow
    rcases lookup_write_successors hrows hchanged k with
      ⟨-, hsame⟩ | ⟨hmem, old, state, hold, hmoved, -, hnext⟩
    · exact ⟨row, hsame.trans hrow, rfl, id, .inr⟩
    · obtain rfl := Option.mem_unique hold hrow
      exact ⟨_, hnext, rfl, hmoves k hmem old state hmoved⟩
  · intro k row hrow
    rcases lookup_write_successors hrows hchanged k with
      ⟨-, hsame⟩ | ⟨-, old, state, hold, -⟩
    · exact ⟨row, hsame.symm.trans hrow⟩
    · exact ⟨old, hold⟩

theorem of_settleUnbound (hok : InputDispositions.settleUnbound inputs keys = .ok (inputs', answer))
    : RowsMove bound inputs inputs' := by
  obtain ⟨document, htransition, rfl⟩ := transition_of_update hok
  refine of_transition (fun k _ row state hmoved => ?_) htransition
  have hmoved' := Except.ok.inj hmoved
  unfold InputAttempt.finishUnbound at hmoved'
  split at hmoved'
  · cases hmoved'
    exact ⟨fun _ => by simp, fun _ => .inr rfl⟩
  · cases hmoved'

theorem of_boundUnknown {k : InputKey} {before after : InputState Digest}
    {binding : NativeBinding Digest} (hstate : before = .boundUnknown binding)
    (hafter : after ≠ .clearedUnsent) :
    (before ≠ .clearedUnsent → after ≠ .clearedUnsent) ∧
      (before.binding = none → bound k ∨ after.binding = none) := by
  refine ⟨fun _ => hafter, fun hnone => ?_⟩
  rw [hstate] at hnone
  cases hnone

theorem of_started [DecidableEq Digest] {turnId nativeId text : String}
    (hok : InputDispositions.started digest inputs key turnId nativeId text =
      .ok (inputs', answer)) : RowsMove bound inputs inputs' := by
  obtain ⟨document, htransition, rfl⟩ := transition_of_update hok
  refine of_transition (fun k _ row state hmoved => ?_) htransition
  have hmoved' := Except.ok.inj hmoved
  unfold InputAttempt.started at hmoved'
  split at hmoved'
  next binding hstate =>
    rw [Option.map_some, Option.some.injEq] at hstate
    split at hmoved'
    · cases hmoved'
      exact of_boundUnknown hstate (by simp)
    · cases hmoved'
  · cases hmoved'

theorem of_clearNative [DecidableEq Digest] {nativeId text : String}
    (hok : InputDispositions.clearNative digest inputs key nativeId text =
      .ok (inputs', answer)) : RowsMove bound inputs inputs' := by
  obtain ⟨document, htransition, rfl⟩ := transition_of_update hok
  refine of_transition (fun k _ row state hmoved => ?_) htransition
  unfold InputAttempt.clearNative at hmoved
  split at hmoved
  next binding hstate =>
    rw [Option.map_some, Option.some.injEq] at hstate
    split at hmoved
    · cases hmoved
      exact of_boundUnknown hstate (by simp)
    · cases hmoved
  · cases hmoved

theorem of_bind {send : NativeSend} (hwhole : BindsWhole digest keys send inputs inputs') :
    RowsMove (· ∈ keys) inputs inputs' := by
  rcases hwhole with hsame | ⟨hothers, hbound⟩
  · constructor
    · intro k row hrow
      exact ⟨row, (hsame k).trans hrow, rfl, id, .inr⟩
    · intro k row hrow
      exact ⟨row, (hsame k).symm.trans hrow⟩
  · constructor
    · intro k row hrow
      by_cases hmem : k ∈ keys
      · obtain ⟨old, hold, -, -, hnext⟩ := hbound k hmem
        obtain rfl := Option.mem_unique hold hrow
        exact ⟨_, hnext, rfl, fun _ => by simp, fun _ => .inl hmem⟩
      · exact ⟨row, (hothers k hmem).trans hrow, rfl, id, .inr⟩
    · intro k row hrow
      by_cases hmem : k ∈ keys
      · obtain ⟨old, hold, -⟩ := hbound k hmem
        exact ⟨old, hold⟩
      · exact ⟨row, (hothers k hmem).symm.trans hrow⟩

end RowsMove

namespace World

/-- A first reservation under its key. -/
theorem lookup_of_reserveOriginals {inputs inputs' answer : InputFile Digest}
    {row : ReservedInput InputOrigin}
    (hok : InputDispositions.reserveOriginals inputs [row] = .ok (inputs', .ok answer)) :
    inputs.lookup row.key = none ∧
      ∀ k, inputs'.lookup k = if k = row.key then some row.stored else inputs.lookup k := by
  simp only [InputDispositions.reserveOriginals, do_eq_ok, Prod.exists] at hok
  obtain ⟨written, document, hrecord, rfl, hfree⟩ := hok
  split at hfree
  case isFalse => cases hfree
  case isTrue hnew =>
    have hfree' : inputs.lookup row.key = none :=
      Dict.get?_eq_none_iff.mpr (hnew.2 row (List.mem_singleton_self row))
    refine ⟨hfree', fun k => ?_⟩
    simp only [InputDispositions.recordOriginals, InputDispositions.update_eq_ok,
      do_eq_ok] at hrecord
    obtain ⟨changed, ⟨recorded, hrecord, rfl, -⟩, rfl⟩ := hrecord
    rw [InputDocument.record, InputDocument.make_eq_ok] at hrecord
    have hselected := InputDocument.lookup_select_keyIn inputs [row.key]
    have hnone : row.key ∉ (inputs.select (InputDispositions.keyIn [row.key])).rows := by
      rw [← Dict.get?_eq_none_iff]
      exact (hselected row.key).trans ((if_pos (List.mem_singleton_self _)).trans hfree')
    rw [List.foldl_cons, List.foldl_nil] at hrecord
    have hlookup : recorded.lookup k = if k = row.key then some row.stored
        else (inputs.select (InputDispositions.keyIn [row.key])).lookup k := by
      rw [InputDocument.lookup, hrecord]
      exact (congrArg (Dict.get? · k) (if_neg hnone)).trans (Dict.get?_set _ _ _ _)
    rw [InputDispositions.lookup_write, hlookup]
    by_cases hk : k = row.key
    · rw [if_pos hk, if_pos hk, Option.some_or]
    · rw [if_neg hk, if_neg hk, hselected, if_neg (by rwa [List.mem_singleton]), Option.none_or]

theorem settleUnbound_move {inputs : InputFile Digest} {keys : List InputKey}
    (hok : world.settleUnbound keys = .ok inputs) {bound : InputKey → Prop} :
    RowsMove bound world.inputs inputs := by
  simp only [settleUnbound, do_eq_ok, mapError_eq_ok, Prod.exists] at hok
  obtain ⟨_, answer, hsettle, rfl⟩ := hok
  exact .of_settleUnbound hsettle

end World

/-! ### Queues -/

variable [DecidableEq Digest]

/-- What a step does to the rows and to the session of the owner that takes it, where
`store` holds the claims after the step. -/
inductive QueueChange (setting : Setting Digest) (op : DeliveryOp) (world : World Digest)
    (owner : ThreadLookup) (store : Store) : InputFile Digest → Session → Prop
  | rows {inputs : InputFile Digest} (bound : InputKey → Prop)
      (hbound : ∀ k, bound k →
        ∃ item ∈ (world.sessions owner).items, item.key = k ∧ item.phase = .queued)
      (hmove : RowsMove bound world.inputs inputs) :
      QueueChange setting op world owner store inputs (world.sessions owner)
  | read {claims : List WakeAssignment} (hstore : store = world.coordinator.store)
      (hclaims : ∀ claim ∈ claims, store.wakeClaims.get? claim.assignmentId = some claim ∧
        claim.recipientLookup = owner ∧ claim.lifecycle.selectedPending = true) :
      QueueChange setting op world owner store world.inputs
        { world.sessions owner with reads := (world.sessions owner).reads ++ claims }
  | reserved {inputs : InputFile Digest} {captured : WakeAssignment}
      {row : StoredInput InputOrigin Digest} {rootId : String}
      (hlock : (world.sessions owner).lock = .delivering)
      (hread : captured ∈ (world.sessions owner).reads)
      (hfree : world.inputs.lookup (setting.busKey owner captured.source) = none)
      (hrow : setting.resolve row.owner = some owner ∧
        row.origin = .wire rootId captured.source ∧ row.state = .reserved)
      (hinputs : ∀ k, inputs.lookup k = if k = setting.busKey owner captured.source then some row
        else world.inputs.lookup k) :
      QueueChange setting op world owner store inputs { world.sessions owner with
        items := ⟨setting.busKey owner captured.source, captured, .reserved⟩ ::
          (world.sessions owner).items }
  | moved {inputs : InputFile Digest} {item : Item} {claim : WakeAssignment}
      {phase : Phase} (hitem : item ∈ (world.sessions owner).items)
      (hmove : RowsMove (fun _ => False) world.inputs inputs)
      (hclaim : claim = item.assignment ∨ ∃ before, before.revision = item.assignment.revision ∧
        Store.Stepped world.coordinator.store item.assignment.assignmentId .deferred before claim
          store)
      (hphase : phase ≠ .queued ∧ (phase.reserving = true → item.phase.reserving = true))
      (hretired : phase = .retired →
        ∀ row, inputs.lookup item.key = some row → row.state.binding = none) :
      QueueChange setting op world owner store inputs
        ((world.sessions owner).move item.key claim phase)
  | dropped {inputs : InputFile Digest} (key : InputKey)
      (hmove : RowsMove (fun _ => False) world.inputs inputs) :
      QueueChange setting op world owner store inputs ((world.sessions owner).drop key)
  | placed (count : Nat) (hlock : (world.sessions owner).lock = .delivering)
      (hready : ∀ item ∈ (world.sessions owner).items,
        item.phase ≠ .reserved ∧ item.phase ≠ .failing) :
      QueueChange setting op world owner store world.inputs { world.sessions owner with
        lock := .free, items := World.placeItems count (world.sessions owner).items }
  | delivering (hlock : (world.sessions owner).lock = .free) :
      QueueChange setting op world owner store world.inputs
        { world.sessions owner with lock := .delivering }
  | recovering (rootId : String) (hlock : (world.sessions owner).lock = .free) :
      QueueChange setting op world owner store world.inputs { world.sessions owner with
        lock := .recovering rootId (world.sessions owner).liveKeys .started }
  | rowsRead {rootId : String} {live : List InputKey}
      (hlock : (world.sessions owner).lock = .recovering rootId live .started) :
      QueueChange setting op world owner store world.inputs { world.sessions owner with
        lock := .recovering rootId live (.read ((world.inputs.rows.values.filterMap
          (World.unboundWireInput setting owner rootId)).filter fun row => row.2 ∉ live)) }
  | claimsRead {rootId : String} {live : List InputKey} {rows : List (MessageReference × InputKey)}
      (hlock : (world.sessions owner).lock = .recovering rootId live (.read rows)) :
      QueueChange setting op world owner store world.inputs { world.sessions owner with
        lock := .recovering rootId live (.selected rows (world.recoverable owner rows)) }
  | rowsSettled {inputs : InputFile Digest} {rootId : String}
      {live : List InputKey} {rows : List (MessageReference × InputKey)}
      {assignments : List WakeAssignment}
      (hlock : (world.sessions owner).lock =
        .recovering rootId live (.selected rows assignments))
      (hmove : RowsMove (fun _ => False) world.inputs inputs) :
      QueueChange setting op world owner store inputs { world.sessions owner with
        lock := .recovering rootId live (.settled assignments) }
  | claimRestored {clock : Clock} {rootId : String} {live : List InputKey}
      {claim : WakeAssignment} {rest : List WakeAssignment}
      (hlock : (world.sessions owner).lock = .recovering rootId live (.settled (claim :: rest)))
      (hstore : store = world.restored clock claim) :
      QueueChange setting op world owner store world.inputs { world.sessions owner with
        lock := .recovering rootId live (.settled rest) }
  | recovered {rootId : String} {live : List InputKey} {recovery : Recovery}
      (hop : op = .recoverEnd owner)
      (hlock : (world.sessions owner).lock = .recovering rootId live recovery) :
      QueueChange setting op world owner store world.inputs
        { world.sessions owner with lock := .free }
  | crashed (hop : op = .crash owner) : QueueChange setting op world owner store world.inputs .fresh

structure Changed (setting : Setting Digest) (op : DeliveryOp) (world world' : World Digest) :
    Prop where
  claims : ClaimChange world op world'.coordinator
  keys : world.coordinator.store.ForeignKeys → world'.coordinator.store.ForeignKeys
  queue : ∃ owner, QueueChange setting op world owner world'.coordinator.store world'.inputs
    (world'.sessions owner) ∧ ∀ other, other ≠ owner → world'.sessions other = world.sessions other
  /-- No step writes both a session and the attempts of the bridges. -/
  apart : world'.sessions = world.sessions ∨
    world'.coordinator = { world.coordinator with store := world'.coordinator.store }

namespace Changed

variable {op : DeliveryOp}

theorem of_claim {store : Store} {inputs : InputFile Digest} {session : Session}
    (hclaims : ClaimChange world op { world.coordinator with store })
    (hkeys : world.coordinator.store.ForeignKeys → store.ForeignKeys)
    (hqueue : QueueChange setting op world owner store inputs session) :
    Changed setting op world ({ world.setStore store with inputs }.setSession owner session) where
  claims := hclaims
  keys := hkeys
  queue := by
    refine ⟨owner, ?_, fun other hother => World.setSession_other _ hother⟩
    rw [World.setSession_self]
    exact hqueue
  apart := .inr rfl

theorem of_queue {inputs : InputFile Digest} {session : Session}
    (hqueue : QueueChange setting op world owner world.coordinator.store inputs session) :
    Changed setting op world ({ world with inputs }.setSession owner session) :=
  of_claim (.of_eq rfl) id hqueue

theorem of_coordinator {coordinator : Coordinator} (hclaims : ClaimChange world op coordinator)
    (hkeys : coordinator.store.ForeignKeys) :
    Changed setting op world { world with coordinator } where
  claims := hclaims
  keys := fun _ => hkeys
  queue := ⟨"", .rows (fun _ => False) (fun _ => False.elim) (.refl _), fun _ _ => rfl⟩
  apart := .inl rfl

end Changed

namespace World

variable {op : DeliveryOp} {inputs : InputFile Digest}

section

variable (hdistinct : DistinctClaims world.coordinator.store.wakeClaims)
include hdistinct

theorem coordinate_changed {write : CoordinatorOp}
    (hok : world.onCoordinator (Coordinator.perform write) = .ok world') :
    Changed setting (.coordinate write) world world' := by
  obtain ⟨coordinator, hperform, rfl⟩ := onCoordinator_eq_ok hok
  exact .of_coordinator (.of_perform hdistinct hperform)
    (Coordinator.transition_of_perform hperform).2.1

/-! ### Each step of a process -/

theorem readPending_changed {afterSeq : Nat} :
    Changed setting op world (world.readPending owner afterSeq) := by
  refine .of_queue (.read rfl fun claim hclaim => ?_)
  obtain ⟨hpending, -⟩ := (Coordinator.mem_pendingSealedAssignments hdistinct).mp hclaim
  obtain ⟨hget, hlookup, hselected, -⟩ := Coordinator.mem_sealedPending.mp hpending
  exact ⟨hget, hlookup, hselected⟩

end

theorem lockDelivery_changed (hok : world.lockDelivery owner = .ok world') :
    Changed setting op world world' := by
  unfold lockDelivery at hok
  split at hok
  next hlock =>
    cases hok
    exact .of_queue (.delivering hlock)
  · cases hok

theorem reserve_changed {captured : WakeAssignment} {reservation : Reservation}
    (hok : world.reserve setting owner captured reservation = .ok world') :
    Changed setting op world world' := by
  unfold reserve at hok
  split at hok
  case h_2 => cases hok
  case h_1 hlock =>
    simp only [do_eq_ok, mapError_eq_ok, Prod.exists] at hok
    obtain ⟨_, ⟨hread, hname⟩, row, hrow, inputs, answer, hreserve, document, hanswer, rfl⟩ := hok
    unfold reservedInput at hrow
    split at hrow
    case isFalse => cases hrow
    case isTrue =>
      cases hrow
      rw [hanswer] at hreserve
      obtain ⟨hfree, hinputs⟩ := lookup_of_reserveOriginals hreserve
      exact .of_queue (.reserved hlock hread hfree ⟨hname, rfl, rfl⟩ hinputs)

theorem pause_changed (hok : world.pause clock owner key = .ok world') :
    Changed setting op world world' := by
  simp only [pause, bind_eq_ok] at hok
  obtain ⟨item, hitem, hok⟩ := hok
  obtain ⟨hmem, rfl, hphase⟩ := item_eq_ok hitem
  split at hok
  next store paused htransition =>
    cases hok
    obtain ⟨⟨before, hrevision, hstep⟩, hkeys⟩ := transition_stepped htransition
    have hasks : item.asks = some .deferred := by rw [Item.asks, hphase]
    refine .of_claim (.asked hmem hasks hrevision hstep) (fun _ => hkeys)
      (.moved hmem (.refl _) (.inr ⟨before, hrevision, hstep⟩) ⟨by decide, fun _ => ?_⟩
        (by simp))
    rw [hphase]
    rfl
  · cases hok
    refine .of_queue (.moved hmem (.refl _) (.inl rfl) ⟨by decide, fun _ => ?_⟩ (by simp))
    rw [hphase]
    rfl

theorem undoPause_changed (hok : world.undoPause clock owner key = .ok world') :
    Changed setting op world world' := by
  simp only [undoPause, do_eq_ok] at hok
  obtain ⟨item, hitem, rfl⟩ := hok
  obtain ⟨hmem, rfl, hphase⟩ := item_eq_ok hitem
  refine .of_claim ?_ (restored_keys world clock item.assignment)
    (.moved hmem (.refl _) (.inl rfl) ⟨by decide, fun _ => ?_⟩ (by simp))
  · rcases restored_cases world clock item.assignment with hsame | ⟨after, hstep⟩
    · rw [hsame]
      exact .of_eq rfl
    · have hasks : item.asks = some item.assignment.lifecycle.mode.initialState.kind := by
        rw [Item.asks, hphase]
      exact .asked hmem hasks rfl hstep
  · rw [hphase]
    rfl

theorem rollback_changed (hok : world.rollback owner key = .ok world') :
    Changed setting op world world' := by
  simp only [rollback, do_eq_ok] at hok
  obtain ⟨item, hitem, inputs, hsettle, rfl⟩ := hok
  exact .of_queue (.dropped key (settleUnbound_move hsettle))

theorem place_changed {count : Nat} (hok : world.place owner count = .ok world') :
    Changed setting op world world' := by
  unfold place at hok
  split at hok
  case h_2 => cases hok
  case h_1 hlock =>
    simp only [do_eq_ok] at hok
    obtain ⟨_, hready, rfl⟩ := hok
    exact .of_queue (.placed count hlock hready)

theorem rows_changed (owner : ThreadLookup) {bound : InputKey → Prop} (hbound : ∀ k, bound k →
      ∃ item ∈ (world.sessions owner).items, item.key = k ∧ item.phase = .queued)
    (hmove : RowsMove bound world.inputs inputs) :
    Changed setting op world { world with inputs } where
  claims := .of_eq rfl
  keys := id
  queue := ⟨owner, .rows bound hbound hmove, fun _ _ => rfl⟩
  apart := .inl rfl

theorem bind_changed {send : NativeSend} {alreadyBound : Bool}
    (hok : world.bind setting owner key send alreadyBound = .ok world') :
    Changed setting op world world' := by
  simp only [World.bind, do_eq_ok, mapError_eq_ok, Prod.exists] at hok
  obtain ⟨item, hitem, inputs, answer, hbind, rfl⟩ := hok
  obtain ⟨hmem, rfl, hphase⟩ := item_eq_ok hitem
  refine rows_changed owner (fun k hk => ?_) (.of_bind (InputDispositions.bindTurnInput_whole hbind))
  exact ⟨item, hmem, (List.mem_singleton.mp hk).symm, hphase⟩

theorem recordStarted_changed {turnId nativeId text : String}
    (hok : world.recordStarted setting owner key turnId nativeId text = .ok world') :
    Changed setting op world world' := by
  simp only [recordStarted, do_eq_ok, mapError_eq_ok, Prod.exists] at hok
  obtain ⟨item, hitem, inputs, answer, hstarted, rfl⟩ := hok
  exact rows_changed owner (fun _ => False.elim) (.of_started hstarted)

theorem clearNative_changed {nativeId text : String}
    (hok : world.clearNative setting owner key nativeId text = .ok world') :
    Changed setting op world world' := by
  simp only [clearNative, do_eq_ok, mapError_eq_ok, Prod.exists] at hok
  obtain ⟨item, hitem, inputs, answer, hclear, rfl⟩ := hok
  exact rows_changed owner (fun _ => False.elim) (.of_clearNative hclear)

theorem settleStarted_changed (hok : world.settleStarted clock owner key = .ok world') :
    Changed setting op world world' := by
  simp only [settleStarted, do_eq_ok, mapError_eq_ok, Prod.exists] at hok
  obtain ⟨item, hitem, _, -, store, after, htransition, rfl⟩ := hok
  obtain ⟨hmem, rfl, hphase⟩ := item_eq_ok hitem
  obtain ⟨⟨before, hrevision, hstep⟩, hkeys⟩ := transition_stepped htransition
  have hasks : item.asks = some .delivered := by rw [Item.asks, hphase]
  exact ⟨.asked hmem hasks hrevision hstep, fun _ => hkeys,
    ⟨owner, .rows (fun _ => False) (fun _ => False.elim) (.refl _), fun _ _ => rfl⟩, .inl rfl⟩

theorem release_changed (hok : world.release owner key = .ok world') :
    Changed setting op world world' := by
  simp only [release, do_eq_ok] at hok
  obtain ⟨item, -, _, -, rfl⟩ := hok
  exact .of_queue (.dropped key (.refl _))

theorem retire_changed (hok : world.retire owner key = .ok world') :
    Changed setting op world world' := by
  simp only [retire, do_eq_ok] at hok
  obtain ⟨item, hitem, rfl⟩ := hok
  obtain ⟨hmem, rfl, -⟩ := item_eq_ok hitem
  exact .of_queue (.moved hmem (.refl _) (.inl rfl)
    ⟨by decide, by simp [Phase.reserving]⟩ (by simp))

theorem finishUnbound_changed (hok : world.finishUnbound owner key = .ok world') :
    Changed setting op world world' := by
  simp only [finishUnbound, do_eq_ok] at hok
  obtain ⟨item, hitem, inputs, hsettle, rfl⟩ := hok
  obtain ⟨hmem, rfl, -⟩ := item_eq_ok hitem
  refine .of_queue ?_
  split
  · exact .dropped item.key (settleUnbound_move hsettle)
  next hbound =>
    refine .moved hmem (settleUnbound_move hsettle) (.inl rfl)
      ⟨by decide, by simp [Phase.reserving]⟩ ?_
    intro _ row hrow
    rw [hrow, Option.any_some, Option.not_isSome_iff_eq_none] at hbound
    exact hbound

theorem restoreItem_changed (hok : world.restoreItem clock owner key = .ok world') :
    Changed setting op world world' := by
  simp only [restoreItem, do_eq_ok] at hok
  obtain ⟨item, hitem, rfl⟩ := hok
  obtain ⟨hmem, rfl, hphase⟩ := item_eq_ok hitem
  have hasks : item.asks = some item.assignment.lifecycle.mode.initialState.kind := by
    rw [Item.asks, hphase]
  refine .of_claim ?_ ?_ (.dropped item.key (.refl _))
  · split
    next htransition =>
      obtain ⟨⟨before, hrevision, hstep⟩, -⟩ := transition_stepped htransition
      exact .asked hmem hasks hrevision hstep
    · exact .of_eq rfl
  · intro hkeys
    split
    next htransition => exact (transition_stepped htransition).2
    · exact hkeys

/-! ### Each step of a recovery -/

theorem recoverLock_changed {rootId : String} (hok : world.recoverLock owner rootId = .ok world') :
    Changed setting op world world' := by
  unfold recoverLock at hok
  dsimp only at hok
  split at hok
  next hlock =>
    cases hok
    exact .of_queue (.recovering rootId hlock)
  · cases hok

theorem recoverRows_changed (hok : world.recoverRows setting owner = .ok world') :
    Changed setting op world world' := by
  simp only [recoverRows, bind_eq_ok, Prod.exists] at hok
  obtain ⟨rootId, live, recovery, hrecovery, hok⟩ := hok
  split at hok
  next hstage =>
    cases hstage
    cases hok
    exact .of_queue (.rowsRead (recovery_eq_ok hrecovery))
  · cases hok

theorem recoverClaims_changed (hok : world.recoverClaims owner = .ok world') :
    Changed setting op world world' := by
  simp only [recoverClaims, bind_eq_ok, Prod.exists] at hok
  obtain ⟨rootId, live, recovery, hrecovery, hok⟩ := hok
  split at hok
  next hstage =>
    cases hstage
    cases hok
    exact .of_queue (.claimsRead (recovery_eq_ok hrecovery))
  · cases hok

theorem recoverSettle_changed (hok : world.recoverSettle owner = .ok world') :
    Changed setting op world world' := by
  simp only [recoverSettle, bind_eq_ok, Prod.exists] at hok
  obtain ⟨rootId, live, recovery, hrecovery, hok⟩ := hok
  split at hok
  next hstage =>
    cases hstage
    simp only [do_eq_ok] at hok
    obtain ⟨inputs, hsettle, rfl⟩ := hok
    exact .of_queue (.rowsSettled (recovery_eq_ok hrecovery) (settleUnbound_move hsettle))
  · cases hok

theorem recoverRestore_changed (hok : world.recoverRestore clock owner = .ok world') :
    Changed setting (.recoverRestore clock owner) world world' := by
  simp only [recoverRestore, bind_eq_ok, Prod.exists] at hok
  obtain ⟨rootId, live, recovery, hrecovery, hok⟩ := hok
  split at hok
  next claim rest hstage =>
    cases hstage
    cases hok
    have hlock := recovery_eq_ok hrecovery
    refine .of_claim ?_ (restored_keys world clock claim) (.claimRestored hlock rfl)
    rcases restored_cases world clock claim with hsame | ⟨after, hstep⟩
    · rw [hsame]
      exact .of_eq rfl
    · exact .recovered rfl hlock hstep
  · cases hok

theorem recoverEnd_changed (hok : world.recoverEnd owner = .ok world') :
    Changed setting (.recoverEnd owner) world world' := by
  simp only [recoverEnd, do_eq_ok, Prod.exists] at hok
  obtain ⟨rootId, live, recovery, hrecovery, rfl⟩ := hok
  exact .of_queue (.recovered rfl (recovery_eq_ok hrecovery))

/-- Every step does one of these things. -/
theorem changed_of_step (hdistinct : DistinctClaims world.coordinator.store.wakeClaims)
    (hok : step setting op world = .ok world') : Changed setting op world world' := by
  cases op with
  | coordinate => exact coordinate_changed hdistinct hok
  | readPending =>
    cases hok
    exact readPending_changed hdistinct
  | lockDelivery => exact lockDelivery_changed hok
  | reserve => exact reserve_changed hok
  | pause => exact pause_changed hok
  | undoPause => exact undoPause_changed hok
  | rollback => exact rollback_changed hok
  | place => exact place_changed hok
  | bind => exact bind_changed hok
  | recordStarted => exact recordStarted_changed hok
  | clearNative => exact clearNative_changed hok
  | settleStarted => exact settleStarted_changed hok
  | release => exact release_changed hok
  | retire => exact retire_changed hok
  | finishUnbound => exact finishUnbound_changed hok
  | restoreItem => exact restoreItem_changed hok
  | recoverLock => exact recoverLock_changed hok
  | recoverRows => exact recoverRows_changed hok
  | recoverClaims => exact recoverClaims_changed hok
  | recoverSettle => exact recoverSettle_changed hok
  | recoverRestore => exact recoverRestore_changed hok
  | recoverEnd => exact recoverEnd_changed hok
  | crash =>
    cases hok
    exact .of_queue (.crashed rfl)

end World

end AgentComms.Deliveries
