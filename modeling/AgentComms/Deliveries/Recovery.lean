import AgentComms.Deliveries.Queue

/-!
# Recovery of interrupted deliveries

A claim paused for a turn returns to its initial state only while its row is unbound, and
an owner's recovery returns every such claim whose row is outside its live queue, whatever
else happens while it runs.
-/

namespace AgentComms.Deliveries

open Library Coordination Inputs Relation

variable {Digest : Type} {setting : Setting Digest}
  {world world' : World Digest} {owner : ThreadLookup} {op : DeliveryOp}

/-! ### Only unbound messages return -/

def Setting.claimKey (setting : Setting Digest) (claim : WakeAssignment) : InputKey :=
  setting.busKey claim.recipientLookup claim.source

/-- The row of a claim is its recipient's, unbound, and not in the live queue. -/
def Idle (setting : Setting Digest) (world : World Digest) (claim : WakeAssignment) : Prop :=
  Unbound setting world.inputs claim.recipientLookup (setting.claimKey claim) ∧
    ∀ item ∈ (world.sessions claim.recipientLookup).items,
      item.key = setting.claimKey claim → item.phase ≠ .queued

namespace Ordered

variable {claim : WakeAssignment}

variable (hordered : Ordered setting world)
include hordered

/-- What an item holds is an earlier value of the claim it moves. -/
theorem claim_of_item {item : Item} (hitem : item ∈ (world.sessions owner).items)
    (hclaim : world.coordinator.store.wakeClaims.get? item.assignment.assignmentId = some claim) :
    owner = claim.recipientLookup ∧ item.key = setting.claimKey claim ∧
      item.assignment.lifecycle.mode = claim.lifecycle.mode := by
  obtain ⟨hrecipient, stored, hstored, hchain⟩ := hordered.held (.inr ⟨item, hitem, rfl⟩)
  obtain rfl := Option.mem_unique hstored hclaim
  obtain ⟨-, -, hlookup, -, -, -, -, -, -, hmode⟩ :=
    (WakeAssignment.follows_of_chain hchain).acceptance
  have howner : owner = stored.recipientLookup := (hlookup.trans hrecipient).symm
  refine ⟨howner, ?_, hmode.symm⟩
  rw [(hordered.orderly owner).keyed item hitem, Setting.claimKey, ← howner,
    WakeAssignment.source_of_chain hchain]

variable [DecidableEq Digest]

/-- No step binds the row of an idle claim. -/
theorem unbound_of_idle
    (hok : World.step setting op world = .ok world') (hidle : Idle setting world claim) :
    ∃ bound : InputKey → Prop, ¬ bound (setting.claimKey claim) ∧
      RowsKept bound world.inputs world'.inputs := by
  obtain ⟨taker, hqueue, -⟩ := (World.changed_of_step hordered.distinct hok).queue
  obtain ⟨bound, hbound, hkept⟩ := hqueue.rowsKept
  refine ⟨bound, fun hkey => ?_, hkept⟩
  obtain ⟨item, hitem, hsame, hphase⟩ := hbound _ hkey
  have howned := (hordered.orderly taker).owned item hitem
  rw [hsame] at howned
  obtain rfl := howned.unique hidle.1.owned
  exact hidle.2 item hitem hsame hphase

end Ordered

/-! ### A recovery returns what it finds -/

/-- The steps that end a recovery of the owner, and those of bridges, triages and
executions. -/
def DeliveryOp.interrupts (owner : ThreadLookup) : DeliveryOp → Bool
  | .coordinate (.base (.register _ _)) | .coordinate (.base (.commit _))
  | .coordinate (.recordCohort _ _ _ _ _) => false
  | .coordinate _ => true
  | .crash other | .recoverEnd other => other == owner
  | _ => false

theorem DeliveryOp.quiet (world : World Digest) (hquiet : op.interrupts owner = false) :
    (∀ attempt, op.handsIn world ≠ some attempt) ∧ op.wakes ≠ true := by
  cases op with
  | coordinate write =>
    cases write with
    | base op => cases op <;> simp_all [interrupts, handsIn, wakes, CoordinatorOp.wakes]
    | _ => simp_all [interrupts, handsIn, wakes, CoordinatorOp.wakes]
  | _ => simp [handsIn, wakes]

/-- Without a new link or a new native input no claim becomes a source of one. -/
theorem unsourced_of_links {coordinator coordinator' : Coordinator} {k : AssignmentId}
    (hnatives : coordinator'.natives = coordinator.natives)
    (htriage : coordinator'.triageSources = coordinator.triageSources)
    (hlinks : ∀ {k link}, coordinator'.store.executionClaims.get? k = some link →
      coordinator.store.executionClaims.get? k = some link)
    (hfree : coordinator.hasNativeSource k = false) : coordinator'.hasNativeSource k = false := by
  rw [Bool.eq_false_iff] at hfree ⊢
  refine fun hsource => hfree ?_
  simp only [Coordinator.hasNativeSource, hnatives, htriage, Bool.or_eq_true,
    List.any_eq_true] at hsource ⊢
  refine hsource.imp_right fun hsource => ?_
  obtain ⟨row, hrow, hlinked⟩ := hsource
  refine ⟨row, hrow, ?_⟩
  split at hlinked
  · cases hlinked
  · obtain ⟨link, hlink, hk⟩ := List.any_eq_true.mp hlinked
    obtain ⟨hget, hexecution⟩ := Table.mem_selectBy.mp hlink
    exact List.any_eq_true.mpr ⟨link, Table.mem_selectBy.mpr ⟨hlinks hget, hexecution⟩, hk⟩

theorem ClaimChange.unsourced {coordinator : Coordinator} {k : AssignmentId}
    (hchange : ClaimChange world op coordinator) (hquiet : op.interrupts owner = false)
    (hfree : world.coordinator.hasNativeSource k = false) :
    coordinator.hasNativeSource k = false := by
  cases hchange with
  | kept _ hwrites hrest =>
    exact unsourced_of_links (congrArg (·.natives) hrest) (congrArg (·.triageSources) hrest)
      (fun hget => (hwrites.executionClaims.reached hget).resolve_right (by simp)) hfree
  | accepted heffect hwrites =>
    exact unsourced_of_links (congrArg (·.natives) heffect.rest)
      (congrArg (·.triageSources) heffect.rest)
      (fun hget => (hwrites.executionClaims.reached hget).resolve_right (by simp)) hfree
  | handed attempt hop => exact absurd hop ((op.quiet world hquiet).1 attempt)
  | woken _ hwakes => exact absurd hwakes (op.quiet world hquiet).2
  | asked _ _ _ hstep | recovered _ _ hstep =>
    refine @unsourced_of_links world.coordinator _ _ rfl rfl (fun hget => ?_) hfree
    rw [hstep.frame] at hget
    exact hget

/-- The recovery will come to this claim. -/
def Recovery.Expects (claim : WakeAssignment) : Recovery → Prop
  | started => True
  | read rows => claim.source ∈ rows.map Prod.fst
  | selected _ assignments | settled assignments => claim ∈ assignments

def Back (store : Store) (claim : WakeAssignment) : Prop :=
  ∃ later, store.wakeClaims.get? claim.assignmentId = some later ∧
    later.recipientLookup = claim.recipientLookup ∧ later.source = claim.source ∧
      later.lifecycle = claim.lifecycle.mode.initialState

/-- A recovery of the claim's recipient runs: the row it found stays idle, and the claim
waits to be restored or is back in its initial state. -/
structure Recovering (setting : Setting Digest) (rootId : String) (claim : WakeAssignment)
    (world : World Digest) : Prop extends Ordered setting world where
  idle : Idle setting world claim
  unsourced : world.coordinator.hasNativeSource claim.assignmentId = false
  origin : ∃ row, world.inputs.lookup (setting.claimKey claim) = some row ∧
    row.origin = .wire rootId claim.source
  stage : ∃ live recovery,
    (world.sessions claim.recipientLookup).lock = .recovering rootId live recovery ∧
      setting.claimKey claim ∉ live ∧
      (world.coordinator.store.wakeClaims.get? claim.assignmentId = some claim ∧
          recovery.Expects claim ∨ Back world.coordinator.store claim)

/-- No initial state declares a step to another. -/
theorem initialState_not_declared (mode other : WakePolicy) :
    other.initialState.kind ∉ mode.initialState.kind.successors := by
  rcases mode with _ | _ | _ <;> rcases other with _ | _ | _ <;> decide

/-- A step on a deferred claim whose row is idle returns it to its initial state. -/
theorem Ordered.back_of_stepped (hordered : Ordered setting world) {claim : WakeAssignment}
    (hidle : Idle setting world claim) {item : Item} {disposition : AssignmentKind}
    {after : WakeAssignment} {store : Store} (hdeferred : claim.lifecycle.kind = .deferred)
    (hitem : item ∈ (world.sessions owner).items) (hasks : item.asks = some disposition)
    (hstep : Store.Stepped world.coordinator.store item.assignment.assignmentId disposition claim
      after store) : after.lifecycle = claim.lifecycle.mode.initialState := by
  obtain ⟨rfl, hkey, hmode⟩ := hordered.claim_of_item hitem hstep.stored
  refine AssignmentState.initialState_of_kind hstep.mode (hstep.kind.trans ?_)
  unfold Item.asks at hasks
  split at hasks
  · -- a deferred claim is not paused again
    cases hasks
    have hdeclared := hstep.declared
    rw [hdeferred] at hdeclared
    simp [AssignmentKind.successors] at hdeclared
  case h_2 | h_3 => rw [← Option.some.inj hasks, hmode]
  next hphase => exact absurd hphase (hidle.2 item hitem hkey)
  all_goals cases hasks

theorem recoverLock_of_free [DecidableEq Digest] (setting : Setting Digest) (rootId : String)
    (hlock : (world.sessions owner).lock = .free) :
    World.step setting (.recoverLock owner rootId) world =
      .ok (world.setSession owner { world.sessions owner with
        lock := .recovering rootId (world.sessions owner).liveKeys .started }) := by
  rw [World.step, World.recoverLock, hlock]

namespace Recovering

variable {rootId : String} {claim : WakeAssignment} {store : Store} {live : List InputKey}
  {inputs : InputFile Digest}

variable (hrecovering : Recovering setting rootId claim world)
include hrecovering

/-- No item moves the claim once it is back: none is reserved, queued or paused. -/
theorem not_asked {item : Item} {disposition : AssignmentKind} {before after : WakeAssignment}
    (hbefore : before.recipientLookup = claim.recipientLookup ∧ before.source = claim.source)
    (hback : before.lifecycle = claim.lifecycle.mode.initialState)
    (hitem : item ∈ (world.sessions owner).items) (hasks : item.asks = some disposition)
    (hstep : Store.Stepped world.coordinator.store item.assignment.assignmentId disposition before
      after store) : False := by
  obtain ⟨rfl, hkey, hmode⟩ := hrecovering.claim_of_item hitem hstep.stored
  have hkey' : item.key = setting.claimKey claim := by
    rw [hkey, Setting.claimKey, Setting.claimKey, hbefore.1, hbefore.2]
  obtain ⟨live, recovery, hlock, -⟩ := hrecovering.stage
  have hidle : item.phase.reserving = false := by
    by_contra hreserving
    rw [Bool.not_eq_false] at hreserving
    have hbusy := ((hrecovering.orderly _).reserving item hitem hreserving).1
    rw [hbefore.1, hlock] at hbusy
    cases hbusy
  unfold Item.asks at hasks
  split at hasks
  case h_1 hphase | h_2 hphase =>
    rw [hphase] at hidle
    cases hidle
  case h_3 =>
    -- a pending claim has no step to a pending state
    have hdeclared := hstep.declared
    rw [← Option.some.inj hasks, hback] at hdeclared
    exact initialState_not_declared _ _ hdeclared
  case h_4 hphase =>
    rw [hbefore.1] at hitem
    exact hrecovering.idle.2 item hitem hkey' hphase
  case h_5 | h_6 => cases hasks

theorem back
    (hlock : (world.sessions claim.recipientLookup).lock = .recovering rootId live (.settled [])) :
    Back world.coordinator.store claim := by
  obtain ⟨live', recovery, hlock', -, hstage⟩ := hrecovering.stage
  rw [hlock] at hlock'
  cases hlock'
  rcases hstage with ⟨-, hexpects⟩ | hback
  · cases hexpects
  · exact hback

section

variable (hpaused : claim.lifecycle.kind = .deferred ∧ claim.lifecycle.executionId = none)
include hpaused

/-- What a quiet step leaves of a claim that waits. -/
theorem waiting_step {coordinator : Coordinator} (hclaims : ClaimChange world op coordinator)
    (hquiet : op.interrupts claim.recipientLookup = false)
    (hclaim : world.coordinator.store.wakeClaims.get? claim.assignmentId = some claim) :
    coordinator.store.wakeClaims.get? claim.assignmentId = some claim ∨
      Back coordinator.store claim := by
  cases hclaims with
  | kept hsame => exact .inl (hsame ▸ hclaim)
  | accepted heffect => exact .inl (heffect.existing hclaim)
  | handed attempt hop => exact absurd hop ((op.quiet world hquiet).1 attempt)
  | woken _ hwakes => exact absurd hwakes (op.quiet world hquiet).2
  | @asked taker item disposition before after store hitem hasks hrevision hstep =>
    by_cases hk : claim.assignmentId = item.assignment.assignmentId
    · obtain rfl : claim = before := Option.some.inj (hclaim.symm.trans (hk ▸ hstep.stored))
      exact .inr ⟨after, hk ▸ hstep.get?_self, hstep.recipient.1, hstep.recipient.2,
        hrecovering.back_of_stepped hrecovering.idle hpaused.1 hitem hasks hstep⟩
    · exact .inl ((hstep.get?_other hk).trans hclaim)
  | @recovered clock taker _ live head after rest store hop hlock hstep =>
    by_cases hk : claim.assignmentId = head.assignmentId
    · obtain rfl : claim = head := Option.some.inj (hclaim.symm.trans (hk ▸ hstep.stored))
      exact .inr ⟨after, hstep.get?_self, hstep.recipient.1, hstep.recipient.2,
        AssignmentState.initialState_of_kind hstep.mode hstep.kind⟩
    · exact .inl ((hstep.get?_other hk).trans hclaim)

omit hpaused in
theorem back_step {coordinator : Coordinator} (hclaims : ClaimChange world op coordinator)
    (hquiet : op.interrupts claim.recipientLookup = false)
    (hback : Back world.coordinator.store claim) : Back coordinator.store claim := by
  obtain ⟨before, hbefore, hrecipient, hsource, hstate⟩ := hback
  cases hclaims with
  | kept hsame => exact ⟨before, hsame ▸ hbefore, hrecipient, hsource, hstate⟩
  | accepted heffect => exact ⟨before, heffect.existing hbefore, hrecipient, hsource, hstate⟩
  | handed attempt hop => exact absurd hop ((op.quiet world hquiet).1 attempt)
  | woken _ hwakes => exact absurd hwakes (op.quiet world hquiet).2
  | @asked taker item disposition old after store hitem hasks hrevision hstep =>
    by_cases hk : claim.assignmentId = item.assignment.assignmentId
    · obtain rfl : before = old := Option.some.inj (hbefore.symm.trans (hk ▸ hstep.stored))
      exact (hrecovering.not_asked ⟨hrecipient, hsource⟩ hstate hitem hasks hstep).elim
    · exact ⟨before, (hstep.get?_other hk).trans hbefore, hrecipient, hsource, hstate⟩
  | @recovered clock taker _ live head after rest store hop hlock hstep =>
    by_cases hk : claim.assignmentId = head.assignmentId
    · obtain rfl : before = head := Option.some.inj (hbefore.symm.trans (hk ▸ hstep.stored))
      have hdeclared := hstep.declared
      rw [hstate] at hdeclared
      exact absurd hdeclared (initialState_not_declared _ _)
    · exact ⟨before, (hstep.get?_other hk).trans hbefore, hrecipient, hsource, hstate⟩

theorem restored_ne (clock : Clock)
    (hclaim : world.coordinator.store.wakeClaims.get? claim.assignmentId = some claim) :
    (world.restored clock claim).wakeClaims.get? claim.assignmentId ≠ some claim := by
  obtain ⟨store, hrestores⟩ := Store.restores hrecovering.keys hclaim hpaused.1 hpaused.2 clock
  have htransition : world.transition clock claim.assignmentId
      claim.lifecycle.mode.initialState.kind claim.revision =
        .ok (store, Store.restoredClaim clock claim) := hrestores
  obtain ⟨⟨before, -, hstep⟩, -⟩ := World.transition_stepped htransition
  unfold World.restored
  rw [if_pos hclaim, htransition]
  intro hsame
  rw [hstep.get?_self, Option.some.injEq] at hsame
  have hrevision := congrArg WakeAssignment.revision hsame
  simp [Store.restoredClaim] at hrevision

variable [DecidableEq Digest]

omit hpaused in
theorem mem_rowsRead (hlive : setting.claimKey claim ∉ live) :
    claim.source ∈ ((world.inputs.rows.values.filterMap (World.unboundWireInput setting
      claim.recipientLookup rootId)).filter fun row => row.2 ∉ live).map Prod.fst := by
  obtain ⟨row, hrow, horigin⟩ := hrecovering.origin
  obtain ⟨⟨found, hfound, howner, hbinding⟩, -⟩ := hrecovering.idle
  obtain rfl := Option.mem_unique hfound hrow
  have hcleared := (hrecovering.attributed hrow).1
  have hstate : found.state = .reserved ∨ found.state = .notSent := by
    cases hcase : found.state <;> simp_all [InputState.binding]
  have hkey : found.key = setting.claimKey claim := InputDocument.key_of_lookup hrow
  refine List.mem_map.mpr ⟨(claim.source, found.key), List.mem_filter.mpr ⟨?_, ?_⟩, rfl⟩
  · refine List.mem_filterMap.mpr ⟨found, Dict.mem_values.mpr ⟨_, hrow⟩, ?_⟩
    rw [World.unboundWireInput, horigin]
    exact if_pos ⟨howner, rfl, hstate⟩
  · rw [hkey]
    exact decide_eq_true hlive

/-- A quiet step keeps the recovery, which still expects a claim that still waits. -/
theorem lock_step {recovery : Recovery}
    (hlock : (world.sessions claim.recipientLookup).lock = .recovering rootId live recovery)
    (hlive : setting.claimKey claim ∉ live) {session : Session}
    (hqueue : QueueChange setting op world claim.recipientLookup store inputs session)
    (hquiet : op.interrupts claim.recipientLookup = false) :
    ∃ later, session.lock = .recovering rootId live later ∧
      (world.coordinator.store.wakeClaims.get? claim.assignmentId = some claim →
        store.wakeClaims.get? claim.assignmentId = some claim → recovery.Expects claim →
          later.Expects claim) := by
  cases hqueue with
  | rows | read | moved | dropped => exact ⟨recovery, hlock, fun _ _ => id⟩
  | reserved hlock' | placed _ hlock' | delivering hlock' | recovering _ hlock' =>
    rw [hlock] at hlock'
    cases hlock'
  | rowsRead hlock' =>
    rw [hlock] at hlock'
    cases hlock'
    exact ⟨_, rfl, fun _ _ _ => hrecovering.mem_rowsRead hlive⟩
  | claimsRead hlock' =>
    rw [hlock] at hlock'
    cases hlock'
    refine ⟨_, rfl, fun hclaim _ hexpects => mem_recoverable.mpr
      ⟨hclaim, rfl, ?_, ?_, hexpects⟩⟩
    · rw [AssignmentState.isDeferredUnbound, hpaused.1, hpaused.2]
      rfl
    · exact hrecovering.unsourced
  | rowsSettled hlock' =>
    rw [hlock] at hlock'
    cases hlock'
    exact ⟨_, rfl, fun _ _ => id⟩
  | claimRestored hlock' hstore =>
    rw [hlock] at hlock'
    cases hlock'
    refine ⟨_, rfl, fun hclaim hkept hexpects => ?_⟩
    rcases List.mem_cons.mp hexpects with rfl | hrest
    · rw [hstore] at hkept
      exact absurd hkept (hrecovering.restored_ne hpaused _ hclaim)
    · exact hrest
  | recovered hop | crashed hop =>
    rw [hop] at hquiet
    simp [DeliveryOp.interrupts] at hquiet

omit hpaused in
/-- No step of the recipient queues the claim's row while the recovery runs. -/
theorem unqueued_step {session : Session}
    (hqueue : QueueChange setting op world claim.recipientLookup store inputs session) :
    ∀ item ∈ session.items, item.key = setting.claimKey claim → item.phase ≠ .queued := by
  obtain ⟨live, recovery, hlock, -⟩ := hrecovering.stage
  intro item hitem hkey
  cases hqueue with
  | reserved hlock' | placed _ hlock' =>
    rw [hlock] at hlock'
    cases hlock'
  | moved _ _ _ hphase =>
    rcases Session.mem_move hitem with ⟨hold, -⟩ | ⟨_, -, -, rfl⟩
    · exact hrecovering.idle.2 item hold hkey
    · exact hphase.1
  | dropped => exact hrecovering.idle.2 item (Session.mem_drop hitem).1 hkey
  | crashed => cases hitem
  | _ => exact hrecovering.idle.2 item hitem hkey

theorem step (hquiet : op.interrupts claim.recipientLookup = false)
    (hok : World.step setting op world = .ok world') : Recovering setting rootId claim world' := by
  have hchanged := World.changed_of_step hrecovering.distinct hok
  obtain ⟨bound, hfree, hkept⟩ := hrecovering.unbound_of_idle hok hrecovering.idle
  obtain ⟨taker, hqueue, hothers⟩ := hchanged.queue
  obtain ⟨live, recovery, hlock, hlive, hstage⟩ := hrecovering.stage
  refine ⟨hrecovering.toOrdered.step hok, ⟨hrecovering.idle.1.kept hkept hfree, ?_⟩,
    hchanged.claims.unsourced hquiet hrecovering.unsourced, ?_, ?_⟩
  · by_cases htaker : claim.recipientLookup = taker
    · subst htaker
      exact hrecovering.unqueued_step hqueue
    · rw [hothers _ htaker]
      exact hrecovering.idle.2
  · obtain ⟨row, hrow, horigin⟩ := hrecovering.origin
    obtain ⟨row', hrow', horiginal, -⟩ := hkept _ _ hrow
    exact ⟨row', hrow', (congrArg (·.origin) horiginal).trans horigin⟩
  · have hlater : ∃ later,
        (world'.sessions claim.recipientLookup).lock = .recovering rootId live later ∧
          (world.coordinator.store.wakeClaims.get? claim.assignmentId = some claim →
            world'.coordinator.store.wakeClaims.get? claim.assignmentId = some claim →
              recovery.Expects claim → later.Expects claim) := by
      by_cases htaker : claim.recipientLookup = taker
      · subst htaker
        exact hrecovering.lock_step hpaused hlock hlive hqueue hquiet
      · rw [hothers _ htaker]
        exact ⟨recovery, hlock, fun _ _ => id⟩
    obtain ⟨later, hlock', hexpects⟩ := hlater
    refine ⟨live, later, hlock', hlive, ?_⟩
    rcases hstage with ⟨hclaim, hexpected⟩ | hback
    · rcases hrecovering.waiting_step hpaused hchanged.claims hquiet hclaim with hsame | hback
      · exact .inl ⟨hsame, hexpects hclaim hsame hexpected⟩
      · exact .inr hback
    · exact .inr (hrecovering.back_step hchanged.claims hquiet hback)

omit hpaused hrecovering in
theorem start (hordered : Ordered setting world)
    (hclaim : world.coordinator.store.wakeClaims.get? claim.assignmentId = some claim)
    (hidle : Idle setting world claim)
    (hunsourced : world.coordinator.hasNativeSource claim.assignmentId = false)
    (horigin : ∃ row, world.inputs.lookup (setting.claimKey claim) = some row ∧
      row.origin = .wire rootId claim.source)
    (hlock : (world.sessions claim.recipientLookup).lock = .free) :
    Recovering setting rootId claim
      (commit (World.step setting (.recoverLock claim.recipientLookup rootId)) world) := by
  have hok := recoverLock_of_free setting rootId hlock
  rw [commit_of_ok hok]
  refine ⟨hordered.step hok, ⟨hidle.1, ?_⟩, hunsourced, horigin, ?_⟩
  · rw [World.setSession_self]
    exact hidle.2
  · refine ⟨_, .started, by rw [World.setSession_self], ?_, .inl ⟨hclaim, trivial⟩⟩
    intro hmem
    obtain ⟨item, hitem, hkey⟩ := List.mem_map.mp hmem
    obtain ⟨hitem, hphase⟩ := List.mem_filter.mp hitem
    exact hidle.2 item hitem hkey (of_decide_eq_true hphase)

theorem run {more : List DeliveryOp}
    (hquiet : ∀ op ∈ more, op.interrupts claim.recipientLookup = false) :
    Recovering setting rootId claim (Library.run (World.step setting) more world) := by
  induction more generalizing world with
  | nil => exact hrecovering
  | cons op more ih =>
    rw [run_cons]
    refine ih ?_ fun other hother => hquiet other (List.mem_cons_of_mem _ hother)
    rcases commit_cases (World.step setting op) world with hok | hsame
    · exact hrecovering.step hpaused (hquiet op List.mem_cons_self) hok
    · rwa [hsame]

end

end Recovering

/-! ### A recovery comes to its end -/

variable {rootId : String} {live : List InputKey} {rows : List (MessageReference × InputKey)}
  {assignments : List WakeAssignment}

variable [DecidableEq Digest]

variable (setting)

end AgentComms.Deliveries
