import AgentComms.Coordination.Triage

/-!
# The lifecycle of wake claims

`CoordinatorOp` is every transaction that writes the coordinator database, and
`Coordinator.reached` the database after any sequence of them. What a transaction does to
the claims is a chain of accepted changes of each stored row; the law of a claim's
lifecycle is what such a chain keeps.
-/

namespace AgentComms.Coordination

open Library Relation
open Inputs (NativeContextProof)

/-! ### What a transaction does to the claims -/

/-- Every stored claim survives along accepted changes, and no recipient gets a second
claim on a message. -/
structure ClaimsEvolve (before after : Store) : Prop where
  kept : ∀ {k claim}, before.wakeClaims.get? k = some claim →
    ∃ later, after.wakeClaims.get? k = some later ∧ ReflTransGen Record.Admits claim later
  distinct : DistinctClaims before.wakeClaims → DistinctClaims after.wakeClaims

namespace ClaimsEvolve

variable {before middle after : Store}

theorem refl (store : Store) : ClaimsEvolve store store where
  kept := fun hget => ⟨_, hget, .refl⟩
  distinct := id

theorem trans (hfirst : ClaimsEvolve before middle) (hsecond : ClaimsEvolve middle after) :
    ClaimsEvolve before after where
  kept := by
    intro k claim hget
    obtain ⟨later, hlater, hchain⟩ := hfirst.kept hget
    obtain ⟨last, hlast, hchain'⟩ := hsecond.kept hlater
    exact ⟨last, hlast, hchain.trans hchain'⟩
  distinct := fun hdistinct => hsecond.distinct (hfirst.distinct hdistinct)

theorem of_evolves {own : Option ExecutionId} {witnessed : PublicationEvidence → Prop}
    (hevolves : Evolves own witnessed before after) : ClaimsEvolve before after where
  kept := hevolves.wakeClaims.kept
  distinct := hevolves.distinct

theorem of_writes (hwrites : Writes none (fun _ => True) before after) :
    ClaimsEvolve before after := of_evolves hwrites.toEvolves

end ClaimsEvolve

namespace Store

variable {witnessed : PublicationEvidence → Prop} {store store' : Store}
  {readings : Readings}

theorem walk_writes {claim : WakeAssignment} {steps : List AssignmentKind}
    (hok : store.walk readings claim steps = .ok store') : Writes none witnessed store store' := by
  induction steps generalizing claim store with
  | nil =>
    obtain rfl := pure_eq_ok.mp hok
    exact .refl store
  | cons disposition rest ih =>
    simp only [walk, bind_eq_ok, Prod.exists] at hok
    obtain ⟨middle, after, hstep, hrest⟩ := hok
    exact (transitionIn_writes hstep).trans (ih hrest)

theorem settleHarnessInputs_writes {lookup : ThreadLookup} {reference : MessageReference}
    {steps : AssignmentState → List AssignmentKind}
    (hok : store.settleHarnessInputs readings lookup reference steps = .ok store') :
    Writes none witnessed store store' := by
  refine .of_foldlM (fun claim _ s t hstep => ?_) hok
  simp only [bind_eq_ok] at hstep
  obtain ⟨_, -, hwalk⟩ := hstep
  exact walk_writes hwalk

end Store

namespace Coordinator

variable {witnessed : PublicationEvidence → Prop} {store store' : Store}
  {coordinator coordinator' : Coordinator} {readings : Readings}
  {attempt row : HarnessDelivery} {inputId : InputId} {context : NativeContextProof}
  {assignments : List WakeAssignment} {owner : ParticipantOwner} {tokenDigest : String}
  {clock : Clock} {captured : WakeAssignment}

theorem settleClaims_writes (hok : settleClaims readings store attempt = .ok store')
    : Writes none witnessed store store' := by
  simp only [settleClaims, bind_eq_ok] at hok
  obtain ⟨middle, hhandoff, hproved⟩ := hok
  exact (Store.settleHarnessInputs_writes hhandoff).trans (Store.settleHarnessInputs_writes hproved)

theorem writing_eq_ok {α : Type} {body : Coordinator → Checked (Coordinator × α)}
    {written : Coordinator × α} : writing body coordinator = .ok written ↔
      body coordinator = .ok written ∧ written.1.store.ForeignKeys := by
  simp only [writing, do_eq_ok, exists_const]
  constructor
  · rintro ⟨_, hbody, hkeys, rfl⟩
    exact ⟨hbody, hkeys⟩
  · rintro ⟨hbody, hkeys⟩
    exact ⟨_, hbody, hkeys, rfl⟩

/-! ### Writes that leave the claims alone -/

theorem insertHarness_store (hok : coordinator.insertHarness row = .ok coordinator') :
    coordinator'.store = coordinator.store := by
  simp only [insertHarness, do_eq_ok] at hok
  obtain ⟨_, -, _, -, rfl⟩ := hok
  rfl

theorem upsertHarness_store (hok : coordinator.upsertHarness row = .ok coordinator') :
    coordinator'.store = coordinator.store := by
  unfold upsertHarness at hok
  split at hok
  · exact insertHarness_store hok
  · simp only [do_eq_ok] at hok
    obtain ⟨_, -, rfl⟩ := hok
    rfl

theorem firstWrite_store {stored : Bool}
    (hok : coordinator.firstWrite attempt = .ok (coordinator', stored)) :
    coordinator'.store = coordinator.store := by
  simp only [firstWrite, bind_eq_ok] at hok
  obtain ⟨row, -, hok⟩ := hok
  split at hok
  · cases hok
    rfl
  · simp only [do_eq_ok] at hok
    obtain ⟨_, hinsert, rfl, -⟩ := hok
    exact insertHarness_store hinsert

/-- A write of the native inputs leaves the store and the attempts of the bridges. -/
def Beside (coordinator coordinator' : Coordinator) : Prop :=
  coordinator'.store = coordinator.store ∧ coordinator'.harness = coordinator.harness

theorem updateNative_beside {selects : NativeRuntimeInput → Bool}
    {edit : NativeRuntimeInput → NativeRuntimeInput}
    (hok : coordinator.updateNative inputId selects edit = .ok coordinator') :
    Beside coordinator coordinator' := by
  simp only [updateNative, do_eq_ok] at hok
  obtain ⟨_, -, rfl⟩ := hok
  exact ⟨rfl, rfl⟩

theorem insertNative_beside {row : NativeRuntimeInput}
    (hok : coordinator.insertNative row = .ok coordinator') :
    Beside coordinator coordinator' := by
  simp only [insertNative, do_eq_ok] at hok
  obtain ⟨_, -, _, -, rfl⟩ := hok
  exact ⟨rfl, rfl⟩

theorem insertTriageSource_beside {row : TriageNativeSource}
    (hok : coordinator.insertTriageSource row = .ok coordinator') :
    Beside coordinator coordinator' := by
  simp only [insertTriageSource, do_eq_ok] at hok
  obtain ⟨_, -, _, -, _, -, rfl⟩ := hok
  exact ⟨rfl, rfl⟩

theorem recordSources_beside {stage : NativeSendStage} {attempt : Nat}
    (hok : recordSources stage inputId attempt coordinator = .ok coordinator') :
    Beside coordinator coordinator' := by
  cases stage with
  | triage =>
    simp only [recordSources, bind_eq_ok] at hok
    obtain ⟨_, -, hloop⟩ := hok
    refine foldlM_invariant (Beside coordinator)
      (fun member _ s t hs hstep => ?_) ⟨rfl, rfl⟩ hloop
    have hnext := insertTriageSource_beside hstep
    exact ⟨hnext.1.trans hs.1, hnext.2.trans hs.2⟩
  | full =>
    simp only [recordSources, do_eq_ok] at hok
    obtain ⟨_, -, rfl⟩ := hok
    exact ⟨rfl, rfl⟩

theorem acknowledgeFirst_beside {row : NativeRuntimeInput}
    (hok : acknowledgeFirst row context coordinator = .ok coordinator') :
    Beside coordinator coordinator' := by
  unfold acknowledgeFirst at hok
  split at hok
  · exact updateNative_beside hok
  · simp only [do_eq_ok] at hok
    obtain ⟨_, -, rfl⟩ := hok
    exact ⟨rfl, rfl⟩

theorem commitContext_beside {row : NativeRuntimeInput}
    (hok : commitContext row context coordinator = .ok coordinator') :
    Beside coordinator coordinator' := by
  simp only [commitContext, bind_eq_ok] at hok
  obtain ⟨_, -, _, -, _, -, hfirst⟩ := hok
  exact acknowledgeFirst_beside hfirst

theorem openAnswer_beside
    (hok : openAnswer assignments owner inputId tokenDigest context coordinator =
      .ok coordinator') : Beside coordinator coordinator' := by
  simp only [openAnswer, bind_eq_ok] at hok
  obtain ⟨_, -, _, -, hcontext⟩ := hok
  exact commitContext_beside hcontext

theorem settleVerdict_beside {verdict : SelectedTriage}
    (hok : settleVerdict inputId verdict coordinator = .ok coordinator') :
    Beside coordinator coordinator' := by
  simp only [settleVerdict, bind_eq_ok] at hok
  obtain ⟨_, -, _, -, _, -, hupdate⟩ := hok
  exact updateNative_beside hupdate

/-! ### One lemma for each transaction -/

theorem recordIn_writes (hok : recordIn readings attempt coordinator = .ok (coordinator', row)) :
    Writes none witnessed coordinator.store coordinator'.store := by
  simp only [recordIn, writeHarness, do_eq_ok] at hok
  obtain ⟨store, hsettle, _, ⟨_, -, hupsert⟩, rfl, -⟩ := hok
  rw [upsertHarness_store hupsert]
  exact settleClaims_writes hsettle

theorem beginHarness_writes {stored : Bool}
    (hok : beginHarness readings attempt coordinator = .ok (coordinator', stored)) :
    Writes none witnessed coordinator.store coordinator'.store := by
  obtain ⟨hok, -⟩ := writing_eq_ok.mp hok
  simp only [bind_eq_ok] at hok
  obtain ⟨store, hsettle, hfirst⟩ := hok
  rw [firstWrite_store hfirst]
  exact settleClaims_writes hsettle

theorem applyHarness_writes {change : HarnessDelivery → HarnessDelivery}
    (hok : applyHarness readings change attempt coordinator = .ok (coordinator', row)) :
    Writes none witnessed coordinator.store coordinator'.store := by
  obtain ⟨hok, -⟩ := writing_eq_ok.mp hok
  simp only [bind_eq_ok] at hok
  obtain ⟨_, -, _, -, hsettle⟩ := hok
  unfold settleOutcome at hsettle
  split at hsettle
  · simp only [do_eq_ok] at hsettle
    obtain ⟨_, -, _, -, rfl, -⟩ := hsettle
    exact .refl _
  · exact recordIn_writes hsettle

theorem recordCohort_writes {identify : Identify} {wireRootId : String}
    {initial : Delivered} {result : Applied AcceptedCohort}
    (hok : recordCohort clock readings identify wireRootId initial coordinator =
      .ok (coordinator', result)) : Writes none witnessed coordinator.store coordinator'.store := by
  obtain ⟨hok, -⟩ := writing_eq_ok.mp hok
  split at hok
  · simp only [do_eq_ok] at hok
    obtain ⟨_, -, rfl, -⟩ := hok
    exact .refl _
  · simp only [recordNewCohort, do_eq_ok] at hok
    obtain ⟨_, -, _, -, _, -, expected, -, receipts, -, created, hinsert, settled, hsettle, _, -,
      rfl, -⟩ := hok
    have hcreated : Writes none witnessed coordinator.store created :=
      .of_foldlM (fun _ _ _ _ hstep => Store.insertWakeClaim_writes hstep) hinsert
    exact hcreated.trans (.of_foldlM (fun _ _ _ _ hstep => settleClaims_writes hstep) hsettle)

theorem reserveNative_writes {stage : NativeSendStage} {attempt : Nat} {reserved : InputId}
    (hok : reserveNative clock stage owner tokenDigest attempt inputId coordinator =
      .ok (coordinator', reserved))
    : Writes none witnessed coordinator.store coordinator'.store := by
  obtain ⟨hok, -⟩ := writing_eq_ok.mp hok
  simp only [do_eq_ok] at hok
  obtain ⟨_, -, _, -, store, hreserve, inserted, hinsert, _, hsources, rfl, -⟩ := hok
  rw [(recordSources_beside hsources).1, (insertNative_beside hinsert).1]
  cases stage with
  | triage =>
    simp only [reserveClaim, bind_eq_ok] at hreserve
    obtain ⟨_, -, hloop⟩ := hreserve
    refine .of_foldlM (fun _ _ _ _ hstep => ?_) hloop
    simp only [reserveTriageClaim, bind_eq_ok] at hstep
    obtain ⟨_, -, _, -, _, -, _, -, _, -, _, -, _, hbuild, hupdate⟩ := hstep
    exact Store.updateWakeClaim_writes hupdate (AssignmentKind.executionId_of_build hbuild)
      (.inl rfl)
  | full =>
    simp only [reserveClaim, do_eq_ok] at hreserve
    obtain ⟨_, -, _, -, _, -, _, -, _, -, rfl⟩ := hreserve
    exact .refl _

theorem settleDecision_writes {decision : SelectedTriage}
    (hok : settleDecision readings decision store captured = .ok store') :
    Writes none witnessed store store' := by
  cases decision with
  | full =>
    simp only [settleDecision, do_eq_ok] at hok
    obtain ⟨_, -, rfl⟩ := hok
    exact .refl _
  | ignore =>
    simp only [settleDecision, bind_eq_ok] at hok
    obtain ⟨_, -, _, hpending, hignored⟩ := hok
    exact (Store.updateWakeClaim_writes hpending (.inl rfl) (.inl rfl)).trans
      (Store.updateWakeClaim_writes hignored (.inl rfl) (.inl rfl))

theorem burnClaim_writes (hok : burnClaim clock store captured = .ok store')
    : Writes none witnessed store store' := by
  simp only [burnClaim, bind_eq_ok] at hok
  obtain ⟨_, -, hupdate⟩ := hok
  exact Store.updateWakeClaim_writes hupdate (.inl rfl) (.inl rfl)

theorem failClaim_writes (hok : failClaim clock store captured = .ok store')
    : Writes none witnessed store store' := by
  simp only [failClaim, bind_eq_ok] at hok
  obtain ⟨_, -, _, -, _, hlifecycle, hupdate⟩ := hok
  exact Store.updateWakeClaim_writes hupdate
    (.inl (Store.executionId_of_preengagement hlifecycle)) (.inl rfl)

end Coordinator

/-! ### Runs of the coordinator -/

inductive CoordinatorOp where
  | base (op : Op)
  | recordCohort (clock : Clock) (readings : Readings)
      (identify : Identify) (wireRootId : String) (initial : Delivered)
  | beginHarness (readings : Readings) (attempt : HarnessDelivery)
  | recordHarness (readings : Readings) (attempt : HarnessDelivery)
  | applyHarness (readings : Readings) (change : HarnessDelivery → HarnessDelivery)
      (attempt : HarnessDelivery)
  | reserveNative (clock : Clock) (stage : NativeSendStage) (owner : ParticipantOwner)
      (tokenDigest : String) (attempt : Nat) (inputId : InputId)
  | grantSend (stage : NativeSendStage) (owner : ParticipantOwner) (inputId : InputId)
      (tokenDigest : String) (grant : SendGrant) (registry : Checked Unit)
  | acknowledgeContext (stage : NativeSendStage) (owner : ParticipantOwner) (inputId : InputId)
      (tokenDigest : String) (context : NativeContextProof)
  | failTerminalContext (assignments : List WakeAssignment) (fence : OwnerFence)
      (owner : ParticipantOwner) (inputId : InputId) (tokenDigest : String)
      (context : NativeContextProof)
  | commitTriage (readings : Readings) (assignments : List WakeAssignment)
      (owner : ParticipantOwner) (inputId : InputId) (tokenDigest : String)
      (context : NativeContextProof) (decision : SelectedTriage)
  | burnTurn (clock : Clock) (assignments : List WakeAssignment) (owner : ParticipantOwner)
      (inputId : InputId) (tokenDigest : String) (context : NativeContextProof)
  | failDecision (clock : Clock) (assignments : List WakeAssignment) (owner : ParticipantOwner)
      (inputId : InputId) (tokenDigest : String) (context : NativeContextProof)
  | createAfterTriage (clock : Clock) (executionId : ExecutionId) (origin : Origin)
      (ownerLookup : ThreadLookup) (maxAttempts : Nat) (sources : List SelectedSource)
      (settled : List WakeAssignment)

def CoordinatorOp.Acknowledges (op : CoordinatorOp) (store : Store) : PublicationEvidence → Prop :=
  match op with
  | .base op => op.Acknowledges store
  | _ => fun _ => False

/-- The transactions of triage and of executions: those that neither register a
participant, nor accept a message, nor store an attempt of a bridge. -/
def CoordinatorOp.wakes : CoordinatorOp → Bool
  | .base (.register _ _) | .base (.commit _) | .recordCohort _ _ _ _ _ | .beginHarness _ _
  | .recordHarness _ _ | .applyHarness _ _ _ => false
  | _ => true

namespace Coordinator

/-- A sealed cohort delivered this message to the recipient as an observer. -/
def observes (coordinator : Coordinator) (claim : WakeAssignment) : Bool :=
  coordinator.receipts.values.any fun receipt => receipt.wireSeq == claim.wireSeq &&
    receipt.deliveries.any fun delivery =>
      delivery.1.recipientLookup == claim.recipientLookup && delivery.2.isNone

/-- An operation of the store. The trigger of `CohortDeliveries` refuses a new claim of
an observer. -/
def performBase (op : Op) (coordinator : Coordinator) : Checked Coordinator := do
  let store ← Coordination.perform op coordinator.store
  require (∀ claim ∈ store.wakeClaims.values,
      (coordinator.store.wakeClaims.get? claim.assignmentId).isSome = true ∨
        coordinator.observes claim = false) (.refusedStatement "wake_claims")
  pure { coordinator with store }

def perform (op : CoordinatorOp) (coordinator : Coordinator) : Checked Coordinator :=
  match op with
  | .base op => coordinator.performBase op
  | .recordCohort clock readings identify root initial =>
    Prod.fst <$> recordCohort clock readings identify root initial coordinator
  | .beginHarness readings attempt => Prod.fst <$> beginHarness readings attempt coordinator
  | .recordHarness readings attempt => Prod.fst <$> recordHarness readings attempt coordinator
  | .applyHarness readings change attempt =>
    Prod.fst <$> applyHarness readings change attempt coordinator
  | .reserveNative clock stage owner token attempt inputId =>
    Prod.fst <$> reserveNative clock stage owner token attempt inputId coordinator
  | .grantSend stage owner inputId token grant registry =>
    Prod.fst <$> grantSend stage owner inputId token grant registry coordinator
  | .acknowledgeContext stage owner inputId token context =>
    Prod.fst <$> acknowledgeContext stage owner inputId token context coordinator
  | .failTerminalContext assignments fence owner inputId token context =>
    Prod.fst <$> failTerminalContext assignments fence owner inputId token context coordinator
  | .commitTriage readings assignments owner inputId token context decision => Prod.fst <$>
      commitTriage readings assignments owner inputId token context decision coordinator
  | .burnTurn clock assignments owner inputId token context =>
    Prod.fst <$> burnTurn clock assignments owner inputId token context coordinator
  | .failDecision clock assignments owner inputId token context =>
    Prod.fst <$> failDecision clock assignments owner inputId token context coordinator
  | .createAfterTriage clock id origin owner maxAttempts sources settled => Prod.fst <$>
      createAfterTriage clock id origin owner maxAttempts sources settled coordinator

def reached (ops : List CoordinatorOp) : Coordinator := run perform ops empty

variable {coordinator coordinator' : Coordinator}

/-- A committed transaction is one of the store's, or writes unbound claims only; it
checked its deferred foreign keys, and no wake writes the attempts of the bridges. -/
theorem transition_of_perform {op : CoordinatorOp}
    (hok : perform op coordinator = .ok coordinator') :
    Transition (op.Acknowledges coordinator.store) coordinator.store coordinator'.store ∧
      coordinator'.store.ForeignKeys ∧
      (op.wakes = true → coordinator'.harness = coordinator.harness) := by
  cases op
  case base =>
    simp only [perform, performBase, do_eq_ok] at hok
    obtain ⟨store, hop, _, -, rfl⟩ := hok
    exact ⟨Coordination.transition_of_perform hop, foreignKeys_of_perform hop, fun _ => rfl⟩
  all_goals
    obtain ⟨⟨_, _⟩, hop, rfl⟩ := map_eq_ok.mp hok
  case createAfterTriage =>
    simp only [createAfterTriage, do_eq_ok, Prod.exists] at hop
    obtain ⟨_, -, _, -, store, result, hcreate, rfl, -⟩ := hop
    have hperform : Coordination.perform (.create _ _ _ _ _ _) _ = .ok store :=
      map_eq_ok.mpr ⟨_, hcreate, rfl⟩
    exact ⟨Coordination.transition_of_perform hperform, foreignKeys_of_perform hperform,
      fun _ => rfl⟩
  all_goals
    obtain ⟨hwrite, hkeys⟩ := writing_eq_ok.mp hop
  case beginHarness => exact ⟨.outside (beginHarness_writes hop), hkeys, by simp [CoordinatorOp.wakes]⟩
  case recordHarness => exact ⟨.outside (recordIn_writes hwrite), hkeys, by simp [CoordinatorOp.wakes]⟩
  case applyHarness => exact ⟨.outside (applyHarness_writes hop), hkeys, by simp [CoordinatorOp.wakes]⟩
  case recordCohort => exact ⟨.outside (recordCohort_writes hop), hkeys, by simp [CoordinatorOp.wakes]⟩
  case reserveNative =>
    refine ⟨.outside (reserveNative_writes hop), hkeys, fun _ => ?_⟩
    simp only [do_eq_ok] at hwrite
    obtain ⟨_, -, _, -, _, -, _, hinsert, _, hsources, rfl, -⟩ := hwrite
    exact (recordSources_beside hsources).2.trans (insertNative_beside hinsert).2
  all_goals
    simp only [do_eq_ok] at hwrite
  case grantSend =>
    obtain ⟨_, -, _, -, _, -, _, -, _, -, _, -, _, -, _, hupdate, rfl, -⟩ := hwrite
    obtain ⟨hstore, hharness⟩ := updateNative_beside hupdate
    exact ⟨hstore ▸ .outside (Writes.refl _), hkeys, fun _ => hharness⟩
  case acknowledgeContext | failTerminalContext =>
    obtain ⟨_, -, _, -, _, hcommit, rfl, -⟩ := hwrite
    obtain ⟨hstore, hharness⟩ := commitContext_beside hcommit
    exact ⟨hstore ▸ .outside (Writes.refl _), hkeys, fun _ => hharness⟩
  all_goals
    obtain ⟨_, hopen, hwrite⟩ := hwrite
    obtain ⟨hstore, hharness⟩ := openAnswer_beside hopen
  case commitTriage =>
    obtain ⟨_, hverdict, _, hsettle, _, -, rfl, -⟩ := hwrite
    have hbeside := settleVerdict_beside hverdict
    rw [hbeside.1, hstore] at hsettle
    exact ⟨.outside (.of_foldlM (fun _ _ _ _ hstep => settleDecision_writes hstep) hsettle), hkeys,
      fun _ => hbeside.2.trans hharness⟩
  case burnTurn =>
    obtain ⟨_, hburn, rfl, -⟩ := hwrite
    rw [hstore] at hburn
    exact ⟨.outside (.of_foldlM (fun _ _ _ _ hstep => burnClaim_writes hstep) hburn), hkeys,
      fun _ => hharness⟩
  case failDecision =>
    obtain ⟨_, hfail, _, -, rfl, -⟩ := hwrite
    rw [hstore] at hfail
    exact ⟨.outside (.of_foldlM (fun _ _ _ _ hstep => failClaim_writes hstep) hfail), hkeys,
      fun _ => hharness⟩

theorem evolve_of_perform {op : CoordinatorOp} (hok : perform op coordinator = .ok coordinator') :
    ClaimsEvolve coordinator.store coordinator'.store :=
  .of_evolves (evolves_of_transition (transition_of_perform hok).1).choose_spec

theorem run_evolve (ops : List CoordinatorOp) (coordinator : Coordinator) :
    ClaimsEvolve coordinator.store (run perform ops coordinator).store :=
  run_invariant (fun later : Coordinator => ClaimsEvolve coordinator.store later.store)
    (fun _ _ _ hevolve hok => hevolve.trans (evolve_of_perform hok)) ops (.refl _)

theorem foreignKeys_of_reached (ops : List CoordinatorOp) : (reached ops).store.ForeignKeys :=
  run_invariant (fun coordinator : Coordinator => coordinator.store.ForeignKeys)
    (fun _ _ _ _ hok => (transition_of_perform hok).2.1) ops (foreignKeys_reached [])

theorem distinct_of_reached (ops : List CoordinatorOp) :
    DistinctClaims (reached ops).store.wakeClaims :=
  (run_evolve ops empty).distinct nofun

end Coordinator

/-! ### The law of one claim -/

namespace WakeAssignment

/-- The values stored for a claim after `claim`, each an accepted change of the one before. -/
def Versions (claim : WakeAssignment) (versions : List WakeAssignment) : Prop :=
  (claim :: versions).IsChain Record.Admits

def terminal (claim : WakeAssignment) : Bool :=
  match claim.lifecycle.kind with
  | .passive | .ignored | .completed | .delivered | .failed => true
  | .triagePending | .fullPending | .engaged | .deferred => false

variable {claim later : WakeAssignment}

theorem successors_of_terminal (hterminal : claim.terminal = true) :
    claim.lifecycle.kind.successors = [] := by
  unfold terminal at hterminal
  split at hterminal
  all_goals simp_all [AssignmentKind.successors]

theorem SameAcceptance.refl (claim : WakeAssignment) : SameAcceptance claim claim :=
  ⟨rfl, rfl, rfl, rfl, rfl, rfl, rfl, rfl, rfl, rfl⟩

theorem SameAcceptance.trans {next : WakeAssignment} (hfirst : SameAcceptance claim later)
    (hsecond : SameAcceptance later next) : SameAcceptance claim next := by
  obtain ⟨h₁, h₂, h₃, h₄, h₅, h₆, h₇, h₈, h₉, h₁₀⟩ := hfirst
  obtain ⟨g₁, g₂, g₃, g₄, g₅, g₆, g₇, g₈, g₉, g₁₀⟩ := hsecond
  exact ⟨g₁.trans h₁, g₂.trans h₂, g₃.trans h₃, g₄.trans h₄, g₅.trans h₅, g₆.trans h₆,
    g₇.trans h₇, g₈.trans h₈, g₉.trans h₉, g₁₀.trans h₁₀⟩

/-- What one accepted change keeps, and the revision it writes. -/
structure Follows (claim later : WakeAssignment) : Prop where
  acceptance : SameAcceptance claim later
  bound : claim.lifecycle.executionId.isSome →
    later.lifecycle.executionId = claim.lifecycle.executionId
  routed : claim.lifecycle.exactTarget.isSome →
    later.lifecycle.exactTarget = claim.lifecycle.exactTarget

theorem Follows.refl (claim : WakeAssignment) : Follows claim claim :=
  ⟨.refl claim, fun _ => rfl, fun _ => rfl⟩

theorem Follows.step (hfollows : Follows claim later) {next : WakeAssignment}
    (hadmits : Record.Admits later next) : Follows claim next := by
  obtain ⟨hsame, ⟨-, hbinding, htarget, -⟩, -⟩ := hadmits
  refine ⟨?_, ?_, ?_⟩
  · exact hfollows.acceptance.trans hsame
  · intro hsome
    have hkept := hfollows.bound hsome
    rw [← hkept]
    exact hbinding (hkept ▸ hsome)
  · intro hsome
    have hkept := hfollows.routed hsome
    rw [← hkept]
    exact htarget (hkept ▸ hsome)

theorem follows_of_chain (hchain : ReflTransGen Record.Admits claim later) :
    Follows claim later := by
  induction hchain with
  | refl => exact Follows.refl claim
  | tail _ hadmits ih => exact ih.step hadmits

theorem source_of_chain (hchain : ReflTransGen Record.Admits claim later) :
    later.source = claim.source := by
  obtain ⟨-, -, -, hseq, hmessage, -⟩ := (follows_of_chain hchain).acceptance
  rw [source, source, hseq, hmessage]

/-- Every value of a history has the revision its place says. -/
theorem revision_of_versions {versions : List WakeAssignment} (hversions : claim.Versions versions)
    (hlast : (claim :: versions).getLast? = some later) :
    later.revision = claim.revision + versions.length := by
  induction versions generalizing claim with
  | nil =>
    rw [List.getLast?_singleton, Option.some.injEq] at hlast
    rw [hlast, List.length_nil, Nat.add_zero]
  | cons version rest ih =>
    obtain ⟨hadmits, hrest⟩ := List.isChain_cons_cons.mp hversions
    rw [List.getLast?_cons_cons] at hlast
    rw [ih hrest hlast, hadmits.2.2.1, List.length_cons]
    omega

theorem versions_of_chain (hchain : ReflTransGen Record.Admits claim later) :
    ∃ versions, claim.Versions versions ∧ (claim :: versions).getLast? = some later ∧
      later.revision = claim.revision + versions.length := by
  obtain ⟨versions, hversions, hlast⟩ := List.exists_isChain_cons_of_relationReflTransGen hchain
  have hlast' : (claim :: versions).getLast? = some later := by
    rw [List.getLast?_eq_some_getLast (List.cons_ne_nil claim versions), hlast]
  exact ⟨versions, hversions, hlast', revision_of_versions hversions hlast'⟩

theorem eq_of_terminal (hterminal : claim.terminal = true)
    (hchain : ReflTransGen Record.Admits claim later) : later = claim := by
  induction hchain with
  | refl => rfl
  | tail _ hadmits ih =>
    subst ih
    obtain ⟨-, -, -, -, hsuccessor⟩ := hadmits
    rw [successors_of_terminal hterminal] at hsuccessor
    cases hsuccessor

end WakeAssignment

/-- A bound claim has the disposition of its execution. -/
theorem Store.ForeignKeys.disposition {store : Store} (hkeys : store.ForeignKeys)
    {claim : WakeAssignment} (hmem : claim ∈ store.wakeClaims.values) {executionId : ExecutionId}
    (hbound : claim.lifecycle.executionId = some executionId) :
    ∃ execution, store.executions.get? executionId = some execution ∧
      claim.lifecycle.kind = execution.lifecycle.kind.assignmentState := by
  have hreferences := hkeys.2.2.2.1 claim hmem
  obtain ⟨engagement, hengagement, rfl⟩ := Option.map_eq_some_iff.mp hbound
  rw [Store.claimReferences, hengagement, Option.all_some, Bool.and_eq_true] at hreferences
  obtain ⟨execution, hget, hkind⟩ := (Option.any_eq_true _ _).mp hreferences.2
  exact ⟨execution, hget, beq_iff_eq.mp hkind⟩

/-- After any sequence of coordinator writes a recipient has at most one claim on a
message, and a bound claim has the disposition of its execution. Through any further
writes a stored claim keeps its policy, message, audience and acceptance time, a value
recorded for its execution or its target stays, its revision counts its changes, and a
settled claim is never changed again. -/
theorem wake_claim_lifecycle (ops more : List CoordinatorOp) :
    (∀ claim ∈ (Coordinator.reached ops).store.wakeClaims.values,
      ∀ other ∈ (Coordinator.reached ops).store.wakeClaims.values,
        claim.recipientLookup = other.recipientLookup → claim.wireSeq = other.wireSeq →
          claim = other) ∧
    (∀ claim ∈ (Coordinator.reached ops).store.wakeClaims.values,
      ∃ later ∈ (Coordinator.reached (ops ++ more)).store.wakeClaims.values,
        later.assignmentId = claim.assignmentId ∧
        (later.lifecycle.mode = claim.lifecycle.mode ∧ later.source = claim.source ∧
          later.audience = claim.audience ∧ later.acceptedAt = claim.acceptedAt) ∧
        (claim.lifecycle.executionId.isSome →
          later.lifecycle.executionId = claim.lifecycle.executionId) ∧
        (claim.lifecycle.exactTarget.isSome →
          later.lifecycle.exactTarget = claim.lifecycle.exactTarget) ∧
        (∃ versions, claim.Versions versions ∧ (claim :: versions).getLast? = some later ∧
          later.revision = claim.revision + versions.length) ∧
        (claim.terminal = true → later = claim)) ∧
    ∀ claim ∈ (Coordinator.reached ops).store.wakeClaims.values,
      ∀ executionId, claim.lifecycle.executionId = some executionId →
        ∃ execution,
          (Coordinator.reached ops).store.executions.get? executionId = some execution ∧
            claim.lifecycle.kind = execution.lifecycle.kind.assignmentState := by
  refine ⟨?_, ?_, ?_⟩
  · intro claim hclaim other hother hlookup hseq
    have hget := Table.mem_values.mp hclaim
    have hget' := Table.mem_values.mp hother
    exact Table.eq_of_key hget hget' (Coordinator.distinct_of_reached ops hget hget' hlookup hseq)
  · intro claim hclaim
    have hevolve : ClaimsEvolve (Coordinator.reached ops).store
        (Coordinator.reached (ops ++ more)).store := by
      rw [Coordinator.reached, Coordinator.reached, run_append]
      exact Coordinator.run_evolve more _
    obtain ⟨later, hlater, hchain⟩ := hevolve.kept (Table.mem_values.mp hclaim)
    obtain ⟨⟨hid, -, -, -, -, haudience, haccepted, -, -, hmode⟩, hbound, hrouted⟩ :=
      WakeAssignment.follows_of_chain hchain
    exact ⟨later, Table.mem_values_of_get? hlater, hid,
      ⟨hmode, WakeAssignment.source_of_chain hchain, haudience, haccepted⟩, hbound, hrouted,
      WakeAssignment.versions_of_chain hchain,
      fun hterminal => WakeAssignment.eq_of_terminal hterminal hchain⟩
  · intro claim hclaim executionId hbound
    exact (Coordinator.foreignKeys_of_reached ops).disposition hclaim hbound

end AgentComms.Coordination
