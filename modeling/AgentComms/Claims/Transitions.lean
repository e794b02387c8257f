import AgentComms.Registry.Document

/-!
# Resource claim transitions

A transition acquires resources under one fresh generation or releases exact
generations. It is applied to the live part of the claim table, so a holder
whose thread is gone blocks nobody, and projected onto the table's next value.
`project_eq_ok` says what a projection keeps, writes and requires.
-/

namespace AgentComms.Claims

open Library Registry

/-! ### Scopes -/

/-- What a recorded acquisition belongs to: a native input, or a selected
execution bound into the claim row. -/
inductive ScopeMember where
  | nativeClaim (inputId : String)
  | wakeClaim (wireRootId : String) (sourceSeq : Nat) (sourceMessageId : String)
      (wakeAssignmentId : String) (wakeRevision : Nat) (recipientLookup : String)
      (executionId : String) (participantGeneration attemptOrdinal : Nat)
deriving DecidableEq, Repr

/-- The generations and ordinals of a wake claim are counted from one. -/
def ScopeMember.Valid : ScopeMember → Prop
  | nativeClaim _ => True
  | wakeClaim _ _ _ _ _ _ _ participantGeneration attemptOrdinal =>
    0 < participantGeneration ∧ 0 < attemptOrdinal

structure RecordedScope where
  ownerClaimedGeneration : Nat
  operationId : String
  turnId : String
  member : ScopeMember
  positive : 0 < ownerClaimedGeneration
  valid : member.Valid
deriving DecidableEq

/-- An unrecorded scope is bus history from before claims recorded one. -/
inductive ClaimScope where
  | unrecorded
  | recorded (scope : RecordedScope)
deriving DecidableEq

namespace ClaimScope

/-- Every operation of one held scope shares its acquisition. -/
def reuses : ClaimScope → RecordedScope → Bool
  | unrecorded, _ => false
  | recorded scope, other => { scope with operationId := other.operationId } = other

def heldAt : ClaimScope → Nat → Bool
  | unrecorded, _ => false
  | recorded scope, claimedGeneration => claimedGeneration = scope.ownerClaimedGeneration

def operationIds : ClaimScope → List String
  | unrecorded => []
  | recorded scope => [scope.operationId]

end ClaimScope

/-! ### Owners -/

/-- The acquisition that holds one resource. An incarnation is the text of its thread's creation
time, kept here as that time. -/
structure ClaimOwner where
  owner : Name
  incarnation : Nat
  seq : Nat
  messageId : String
  generation : String
  resourceScope : ClaimScope
  resource : String
deriving DecidableEq

inductive ClaimError where
  | transition (message : String)
  | conflict (existing : ClaimOwner)
  | identityConflict (message : String)
  | relationViolation (message : String)
  | registry (error : RegistryError)
  | keyError (seq : Nat)
deriving DecidableEq

abbrev Checked := Except ClaimError

/-- A publication's registry snapshot, and the process table as it was found when
each resource's holder was checked. -/
structure RegistryCut where
  snapshot : RegistrySnapshot
  observed : String → Environment

namespace ClaimOwner

def live (holder : ClaimOwner) (snapshot : RegistrySnapshot) (env : Environment) :
    Except RegistryError Bool :=
  (snapshot.threadsFor holder.owner holder.incarnation).anyM fun thread => do
    let status ← snapshot.status env thread.name
    if status.active && env.alive thread.processIdentity then do
      let generation ← snapshot.claimGeneration thread.name
      pure (holder.resourceScope.heldAt generation)
    else pure false

def liveIn (holder : ClaimOwner) (cut : RegistryCut) : Checked Bool :=
  (holder.live cut.snapshot (cut.observed holder.resource)).mapError .registry

def requireHolder (holder : ClaimOwner) (owner : Name) (incarnation : Nat) : Checked Unit :=
  require (holder.owner = owner ∧ holder.incarnation = incarnation) (.conflict holder)

end ClaimOwner

/-! ### The claim table -/

/-- The claim table and the last processed claim sequence. Its constructor checks that every row
is filed under its own resource and that no row is newer than that sequence. -/
structure ClaimProjection where
  lastSeq : Nat
  claims : Dict String ClaimOwner
  wellFormed : ∀ entry ∈ claims.entries, entry.2.resource = entry.1 ∧ entry.2.seq ≤ lastSeq

namespace ClaimProjection

def build (lastSeq : Nat) (claims : Dict String ClaimOwner) : Checked ClaimProjection :=
  if hwell : ∀ entry ∈ claims.entries, entry.2.resource = entry.1 ∧ entry.2.seq ≤ lastSeq then
    .ok ⟨lastSeq, claims, hwell⟩
  else .error (.transition "Previous projection is malformed.")

theorem build_eq_ok {lastSeq : Nat} {claims : Dict String ClaimOwner} {built : ClaimProjection} :
    build lastSeq claims = .ok built ↔ built.lastSeq = lastSeq ∧ built.claims = claims := by
  unfold build
  constructor
  · intro hok
    split at hok
    · cases hok
      exact ⟨rfl, rfl⟩
    · cases hok
  · rintro ⟨rfl, rfl⟩
    exact dif_pos built.wellFormed

def liveIn (projection : ClaimProjection) (cut : RegistryCut) : Checked ClaimProjection := do
  let live ← projection.claims.traverse fun _ holder => holder.liveIn cut
  build projection.lastSeq (projection.claims.filter fun resource _ =>
    live.get? resource = some true)

/-- The live part: every holder was asked, and the live ones are kept. -/
theorem of_liveIn {projection live : ClaimProjection} {cut : RegistryCut}
    (hok : projection.liveIn cut = .ok live) :
    live.lastSeq = projection.lastSeq ∧
    (∀ resource holder, live.claims.get? resource = some holder ↔
      projection.claims.get? resource = some holder ∧ holder.liveIn cut = .ok true) ∧
    ∀ resource holder, projection.claims.get? resource = some holder →
      holder.liveIn cut = .ok true ∨ holder.liveIn cut = .ok false := by
  simp only [liveIn, bind_eq_ok] at hok
  obtain ⟨flags, hflags, hbuild⟩ := hok
  obtain ⟨hseq, hclaims⟩ := build_eq_ok.mp hbuild
  have hasked := fun resource => (Dict.get?_of_traverse hflags resource).1
  refine ⟨hseq, fun resource holder => ?_, fun resource holder hget => ?_⟩
  · rw [hclaims, Dict.get?_filter, Option.filter_eq_some_iff, decide_eq_true_iff]
    refine and_congr_right fun hget => ?_
    obtain ⟨flag, hlive, hflag⟩ := hasked resource holder hget
    rw [hflag, hlive, Option.some.injEq, Except.ok.injEq]
  · obtain ⟨flag, hlive, -⟩ := hasked resource holder hget
    cases flag
    · exact .inr hlive
    · exact .inl hlive

end ClaimProjection

/-! ### Transitions -/

structure ClaimRelease where
  resource : String
  generation : String
deriving DecidableEq, Repr

inductive ClaimChange where
  | acquisition (claims : List String) (generation : String) (resourceScope : ClaimScope)
  | release (releases : List ClaimRelease)
deriving DecidableEq

namespace ClaimChange

def resources : ClaimChange → List String
  | acquisition claims _ _ => claims
  | release releases => releases.map ClaimRelease.resource

/-- A release consumes no acquisition operation. -/
def operationIds : ClaimChange → List String
  | acquisition _ _ resourceScope => resourceScope.operationIds
  | release _ => []

end ClaimChange

def maxResources : Nat := 32

structure ClaimTransition where
  owner : Name
  incarnation : Nat
  seq : Nat
  messageId : String
  change : ClaimChange
  expired : List String
  bounded : 0 < change.resources.length ∧ change.resources.length ≤ maxResources
  distinct : change.resources.Nodup
deriving DecidableEq

namespace ClaimTransition

def make (owner : Name) (incarnation seq : Nat) (messageId : String) (change : ClaimChange) :
    Checked ClaimTransition :=
  if hbounded : 0 < change.resources.length ∧ change.resources.length ≤ maxResources then
    if hdistinct : change.resources.Nodup then
      .ok ⟨owner, incarnation, seq, messageId, change, [], hbounded, hdistinct⟩
    else .error (.transition "Duplicate or overlapping resources are not supported.")
  else .error (.transition "Claim transitions need a bounded resource set.")

theorem of_make {owner : Name} {incarnation seq : Nat} {messageId : String}
    {change : ClaimChange} {transition : ClaimTransition}
    (hok : make owner incarnation seq messageId change = .ok transition) :
    transition.owner = owner ∧ transition.incarnation = incarnation ∧ transition.seq = seq ∧
      transition.change = change := by
  unfold make at hok
  split at hok
  · split at hok
    · cases hok
      exact ⟨rfl, rfl, rfl, rfl⟩
    · cases hok
  · cases hok

variable (self : ClaimTransition)

def resources : List String := self.change.resources

def operationIds : List String := self.change.operationIds

def requireNewOperation (isUsed : String → Bool) : Checked Unit :=
  self.operationIds.forM fun operationId =>
    require (isUsed operationId = false)
      (.identityConflict "Claim operation was already consumed")

def claimed (resource : String) : Checked ClaimOwner :=
  match self.change with
  | .acquisition claims generation resourceScope =>
    if resource ∈ claims then
      .ok ⟨self.owner, self.incarnation, self.seq, self.messageId, generation, resourceScope,
        resource⟩
    else .error (.transition "Resource is not part of this acquisition.")
  | .release _ => .error (.transition "Release originals do not acquire resources.")

theorem of_claimed {self : ClaimTransition} {resource : String} {holder : ClaimOwner}
    (hok : self.claimed resource = .ok holder) :
    holder.resource = resource ∧ holder.seq = self.seq := by
  unfold claimed at hok
  split at hok
  · split at hok
    · cases hok
      exact ⟨rfl, rfl⟩
    · cases hok
  · cases hok

def requireHolders (previous : ClaimProjection) : Checked Unit :=
  match self.change with
  | .acquisition claims _ _ => claims.forM fun resource =>
    match previous.claims.get? resource with
    | some holder => holder.requireHolder self.owner self.incarnation
    | none => .ok ()
  | .release _ => .ok ()

/-- Withdraw one resource: its exact incarnation and generation only. -/
def withdraw (remaining : Dict String ClaimOwner)
    (release : ClaimRelease) : Checked (Dict String ClaimOwner) := do
  let current ← orRefuse (remaining.get? release.resource)
    (.transition "Cannot release a resource without a live claim.")
  require (current.incarnation = self.incarnation ∧ current.generation = release.generation)
    (.transition "Only the exact owner incarnation/generation may release.")
  pure (remaining.erase release.resource)

def remaining (previous : ClaimProjection)
    (releases : List ClaimRelease) : Checked (Dict String ClaimOwner) := do
  require (previous.lastSeq < self.seq) (.transition "Claim sequence must increase.")
  releases.foldlM self.withdraw (previous.claims.filter fun resource _ => resource ∉ self.expired)

def project (previous : ClaimProjection) : Checked ClaimProjection :=
  match self.change with
  | .acquisition claims _ _ => do
      let kept ← self.remaining previous []
      let acquired ← claims.foldlM (fun claims resource => do
        let holder ← self.claimed resource
        pure (claims.set resource holder)) kept
      ClaimProjection.build self.seq acquired
  | .release releases => do
      let kept ← self.remaining previous releases
      ClaimProjection.build self.seq kept

/-- Only registry evidence expires claims: a caller's own expiry is dropped. -/
def apply (previous : ClaimProjection) (cut : RegistryCut) : Checked ClaimProjection := do
  let live ← previous.liveIn cut
  self.requireHolders live
  { self with expired := [] }.project live

/-! ### What a projection does -/

variable {self} {previous next : ClaimProjection}

/-- Distinct releases are withdrawn exactly when each one names a held claim. -/
theorem withdraw_eq_ok {releases : List ClaimRelease}
    (hnodup : (releases.map ClaimRelease.resource).Nodup) {before after : Dict String ClaimOwner} :
    releases.foldlM self.withdraw before = .ok after ↔
      (∀ release ∈ releases, ∃ current, before.get? release.resource = some current ∧
        current.incarnation = self.incarnation ∧ current.generation = release.generation) ∧
      before.filter (fun resource _ => resource ∉ releases.map ClaimRelease.resource) = after := by
  induction releases generalizing before with
  | nil =>
    have hall : before.filter (fun resource _ => resource ∉ ([] : List ClaimRelease).map
        ClaimRelease.resource) = before := Dict.ext_entries (by simp [Dict.filter])
    rw [List.foldlM_nil, pure_eq_ok, hall]
    simp
  | cons release releases ih =>
    rw [List.map_cons, List.nodup_cons] at hnodup
    have hrest : (before.erase release.resource).filter (fun resource _ =>
        resource ∉ releases.map ClaimRelease.resource) = before.filter fun resource _ =>
          resource ∉ (release :: releases).map ClaimRelease.resource := by
      refine Dict.ext_entries ?_
      simp [Dict.filter, Dict.erase, List.filter_filter, Bool.and_comm]
    simp only [List.foldlM_cons, withdraw, do_eq_ok, exists_const, List.forall_mem_cons]
    constructor
    · rintro ⟨_, ⟨current, hcurrent, hmatch, rfl⟩, hok⟩
      obtain ⟨hheld, hafter⟩ := (ih hnodup.2).mp hok
      refine ⟨⟨⟨current, hcurrent, hmatch⟩, fun other hother => ?_⟩, hrest ▸ hafter⟩
      obtain ⟨found, hfound, hsame⟩ := hheld other hother
      exact ⟨found, (Dict.get?_erase_eq_some.mp hfound).2, hsame⟩
    · rintro ⟨⟨⟨current, hcurrent, hmatch⟩, hheld⟩, hafter⟩
      refine ⟨_, ⟨current, hcurrent, hmatch, rfl⟩, (ih hnodup.2).mpr ⟨fun other hother => ?_,
        hrest.trans hafter⟩⟩
      -- a later release names another resource, which the erasure left alone
      have hne : other.resource ≠ release.resource := fun heq =>
        hnodup.1 (heq ▸ List.mem_map_of_mem hother)
      rw [Dict.get?_erase, if_neg hne]
      exact hheld other hother

def projected (self : ClaimTransition) (claims : Dict String ClaimOwner) : Dict String ClaimOwner :=
  let kept := claims.filter fun resource _ => resource ∉ self.expired
  match self.change with
  | .acquisition resources generation resourceScope =>
    resources.foldl (fun held resource => held.set resource ⟨self.owner, self.incarnation, self.seq,
      self.messageId, generation, resourceScope, resource⟩) kept
  | .release releases => kept.filter fun resource _ => resource ∉ releases.map ClaimRelease.resource

/-- The named resources are changed, the expired ones dropped and the rest kept. -/
theorem get?_projected (self : ClaimTransition) (claims : Dict String ClaimOwner)
    (resource : String) :
    (self.projected claims).get? resource =
      if resource ∈ self.resources then (self.claimed resource).toOption
      else if resource ∈ self.expired then none else claims.get? resource := by
  have hkept := claims.get?_filter_key (· ∉ self.expired) resource
  unfold projected resources claimed
  cases self.change with
  | acquisition =>
    dsimp only [ClaimChange.resources]
    rw [Dict.get?_foldl_tabulate, hkept, ite_not]
    split <;> rfl
  | release =>
    dsimp only [ClaimChange.resources]
    rw [Dict.get?_filter_key, hkept, ite_not, ite_not]
    rfl

/-- What a projection needs of the table: an earlier last claim, and the exact claim
under each released resource. -/
structure Follows (transition : ClaimTransition) (lastSeq : Nat)
    (owner : String → Option ClaimOwner) : Prop where
  later : lastSeq < transition.seq
  released : ∀ releases, transition.change = .release releases → ∀ release ∈ releases,
    release.resource ∉ transition.expired ∧ ∃ current, owner release.resource = some current ∧
      current.incarnation = transition.incarnation ∧ current.generation = release.generation

theorem project_eq_ok :
    self.project previous = .ok next ↔ self.Follows previous.lastSeq previous.claims.get? ∧
      next.lastSeq = self.seq ∧ next.claims = self.projected previous.claims := by
  have hdistinct := self.distinct
  have hkept := previous.claims.get?_filter_key (· ∉ self.expired)
  unfold project projected
  cases hchange : self.change with
  | acquisition claims generation scope =>
    have hclaimed : ∀ resource ∈ claims, self.claimed resource = .ok ⟨self.owner,
        self.incarnation, self.seq, self.messageId, generation, scope, resource⟩ := by
      intro resource hmem
      rw [claimed, hchange]
      exact if_pos hmem
    simp only [remaining, do_eq_ok, exists_const, List.foldlM_nil,
      Dict.foldlM_set_tabulate claims _ hclaimed, Except.ok.injEq, ClaimProjection.build_eq_ok]
    constructor
    · rintro ⟨_, ⟨hlater, rfl⟩, _, rfl, hbuilt⟩
      exact ⟨⟨hlater, fun _ hrelease => by rw [hchange] at hrelease; cases hrelease⟩, hbuilt⟩
    · rintro ⟨hfollows, hbuilt⟩
      exact ⟨_, ⟨hfollows.later, rfl⟩, _, rfl, hbuilt⟩
  | release releases =>
    rw [hchange] at hdistinct
    simp only [remaining, do_eq_ok, exists_const, withdraw_eq_ok hdistinct,
      ClaimProjection.build_eq_ok, hkept]
    constructor
    · rintro ⟨_, ⟨hlater, hheld, rfl⟩, hbuilt⟩
      refine ⟨⟨hlater, fun _ hrelease release hmem => ?_⟩, hbuilt⟩
      rw [hchange] at hrelease
      cases hrelease
      obtain ⟨current, hget, hmatch⟩ := hheld release hmem
      split at hget
      next hkeep => exact ⟨hkeep, current, hget, hmatch⟩
      · cases hget
    · rintro ⟨hfollows, hbuilt⟩
      refine ⟨_, ⟨hfollows.later, fun release hmem => ?_, rfl⟩, hbuilt⟩
      obtain ⟨hkeep, current, hget, hmatch⟩ := hfollows.released releases hchange release hmem
      exact ⟨current, (if_pos hkeep).trans hget, hmatch⟩

/-- A table that filed its rows gives a projection that files its own. -/
theorem project_ok (hfollows : self.Follows previous.lastSeq previous.claims.get?) :
    ∃ next, self.project previous = .ok next := by
  have hfiled : ∀ entry ∈ (self.projected previous.claims).entries,
      entry.2.resource = entry.1 ∧ entry.2.seq ≤ self.seq := by
    intro entry hentry
    have hget := Dict.mem_entries.mp hentry
    rw [get?_projected] at hget
    split at hget
    · obtain ⟨hresource, hseq⟩ := of_claimed (toOption_eq_some.mp hget)
      exact ⟨hresource, hseq.le⟩
    · split at hget
      · cases hget
      · obtain ⟨hresource, hseq⟩ := previous.wellFormed _ (Dict.mem_entries.mpr hget)
        exact ⟨hresource, hseq.trans hfollows.later.le⟩
  exact ⟨⟨self.seq, _, hfiled⟩, project_eq_ok.mpr ⟨hfollows, rfl, rfl⟩⟩

/-- A transition consumes at most one operation. -/
theorem operationIds_nodup (self : ClaimTransition) : self.operationIds.Nodup := by
  unfold operationIds
  rcases self.change with ⟨_, _, _ | _⟩ | _ <;> simp [ClaimChange.operationIds,
    ClaimScope.operationIds]

end ClaimTransition

end AgentComms.Claims
