import AgentComms.Claims.Runs

/-!
# Claims that conflict with their own thread

A live holder is found through the aliases of its thread, but an acquisition compares
the name recorded with the claim. `acquisition_conflicts_iff` says which acquisitions
are refused although no other incarnation holds what they ask for.
-/

namespace AgentComms.Claims

open Library Registry

/-- One of the asked resources has this live holder. -/
def LiveHolder (bus : ClaimBus) (cut : RegistryCut) (claims : List String) (holder : ClaimOwner) :
    Prop :=
  ∃ resource ∈ claims, bus.ownerFor resource = .ok (some holder) ∧ holder.liveIn cut = .ok true

/-- The registry has what the liveness of every recorded holder reads. -/
def Readable (bus : ClaimBus) (cut : RegistryCut) : Prop :=
  ∀ resource holder, bus.ownerFor resource = .ok (some holder) →
    ∃ live, holder.liveIn cut = .ok live

def Draft.Bounded (draft : Draft) : Prop :=
  (0 < draft.change.resources.length ∧ draft.change.resources.length ≤ maxResources) ∧
    draft.change.resources.Nodup

variable {bus : ClaimBus} {cut : RegistryCut} {draft : Draft} {claims : List String}
  {generation : String} {scope : ClaimScope} {transition : ClaimTransition}
  {previous live : ClaimProjection} {error : ClaimError}

theorem Draft.Bounded.build_ok (hbounded : draft.Bounded) (seq : Nat) :
    ∃ transition, draft.build seq = .ok transition :=
  ⟨_, (dif_pos hbounded.1).trans (dif_pos hbounded.2)⟩

namespace ClaimProjection

theorem liveIn_ok (hreadable : ∀ resource holder, previous.claims.get? resource = some holder →
    ∃ flag, holder.liveIn cut = .ok flag) : ∃ live, previous.liveIn cut = .ok live := by
  obtain ⟨flags, hflags⟩ := Dict.traverse_ok hreadable
  have hfiled : ∀ entry ∈ (previous.claims.filter fun resource _ =>
      flags.get? resource = some true).entries,
        entry.2.resource = entry.1 ∧ entry.2.seq ≤ previous.lastSeq := fun entry hentry =>
    previous.wellFormed entry (List.mem_of_mem_filter hentry)
  exact ⟨⟨previous.lastSeq, _, hfiled⟩, bind_eq_ok.mpr ⟨flags, hflags, build_eq_ok.mpr ⟨rfl, rfl⟩⟩⟩

/-- A liveness read that fails raises no conflict. -/
theorem liveIn_ne_conflict (existing : ClaimOwner) :
    previous.liveIn cut ≠ .error (.conflict existing) := by
  intro hrefused
  rcases bind_eq_error.mp hrefused with htraverse | ⟨flags, -, hbuild⟩
  · obtain ⟨⟨_, holder⟩, -, _, hround⟩ := foldlM_eq_error htraverse
    rcases bind_eq_error.mp hround with hlive | ⟨_, -, hpure⟩
    · have hread : (holder.live cut.snapshot (cut.observed holder.resource)).mapError
          ClaimError.registry = .error (.conflict existing) := hlive
      cases hcause : holder.live cut.snapshot (cut.observed holder.resource) <;>
        rw [hcause] at hread <;> cases hread
    · cases hpure
  · unfold build at hbuild
    split at hbuild <;> cases hbuild

end ClaimProjection

namespace ClaimBus

theorem lastClaim_le (bus : ClaimBus) (through : Nat) : bus.lastClaim through ≤ through := by
  induction through with
  | zero => exact le_rfl
  | succ seq ih =>
    rw [lastClaim]
    split
    · exact le_rfl
    · exact ih.trans (Nat.le_succ seq)

/-- The holders and the operations decide an acquisition whose holders could be read. -/
theorem Kept.publish_acquisition (hkept : bus.Kept)
    (hbuild : draft.build bus.nextSeq = .ok transition)
    (hchange : transition.change = .acquisition claims generation scope)
    (hprevious : bus.allClaims = .ok previous) (hlive : previous.liveIn cut = .ok live) :
    ∃ after, bus.publish cut draft = (do
      transition.requireHolders live
      transition.requireNewOperation bus.operationUsed
      pure after) := by
  obtain ⟨-, -, hseq, -⟩ := ClaimTransition.of_make hbuild
  have hfollows : ClaimTransition.Follows { transition with expired := [] } live.lastSeq
      live.claims.get? := by
    refine ⟨?_, fun releases hrelease => ?_⟩
    · obtain ⟨_, hall, hlast, -⟩ := allClaims_ok hkept.shows hkept.filed
      rw [hprevious] at hall
      cases hall
      rw [(ClaimProjection.of_liveIn hlive).1, hlast, ← hkept.shows.lastSeq]
      exact hseq.symm ▸ Nat.lt_succ_of_le (bus.lastClaim_le _)
    · rw [show transition.change = .release releases from hrelease] at hchange
      cases hchange
  obtain ⟨projected, hproject⟩ := ClaimTransition.project_ok hfollows
  cases hholders : transition.requireHolders live with
  | error =>
    refine ⟨bus, ?_⟩
    simp [publish, prepareClaim, ClaimTransition.apply, hbuild, hprevious, hlive, hholders, bind,
      Except.bind]
  | ok =>
    cases hnew : transition.requireNewOperation bus.operationUsed with
    | error =>
      refine ⟨bus, ?_⟩
      simp [publish, prepareClaim, ClaimTransition.apply, hbuild, hprevious, hlive, hholders,
        hproject, hnew, bind, Except.bind]
    | ok =>
      have hprepare : ∃ prepared, bus.prepareClaim transition cut = .ok prepared := by
        simp [prepareClaim, ClaimTransition.apply, hprevious, hlive, hholders, hproject, hnew, bind,
          Except.bind, pure, Except.pure]
      obtain ⟨prepared, hprepared⟩ := hprepare
      obtain ⟨_, _, -, -, hchecked, -⟩ := of_prepareClaim hkept.shows hkept.filed hprepared
      obtain ⟨after, happend, -⟩ := append_ok hkept.shows hkept.filed hchecked.admits
        (by rw [hchecked.fields]; exact hseq)
      exact ⟨after, bind_eq_ok.mpr
        ⟨transition, hbuild, bind_eq_ok.mpr ⟨prepared, hprepared, happend⟩⟩⟩

/-- The holders that an acquisition is compared with are the live ones. -/
theorem Kept.liveHolder_iff (hkept : bus.Kept) (hprevious : bus.allClaims = .ok previous)
    (hlive : previous.liveIn cut = .ok live) {holder : ClaimOwner} :
    LiveHolder bus cut claims holder ↔
      ∃ resource ∈ claims, live.claims.get? resource = some holder := by
  obtain ⟨_, hall, -, hclaims⟩ := allClaims_ok hkept.shows hkept.filed
  rw [hprevious] at hall
  cases hall
  simp only [LiveHolder, hkept.shows.ownerFor, (ClaimProjection.of_liveIn hlive).2.1, hclaims,
    Except.ok.injEq]

theorem requireHolders_eq_ok (hchange : transition.change = .acquisition claims generation scope) :
    transition.requireHolders live = .ok () ↔ ∀ resource ∈ claims, ∀ holder,
      live.claims.get? resource = some holder →
        holder.owner = transition.owner ∧ holder.incarnation = transition.incarnation := by
  rw [ClaimTransition.requireHolders, hchange]
  refine forM_eq_ok.trans (forall₂_congr fun resource _ => ?_)
  cases live.claims.get? resource <;> simp [ClaimOwner.requireHolder]

theorem Kept.readable_iff (hkept : bus.Kept) (hprevious : bus.allClaims = .ok previous) :
    Readable bus cut ↔ ∃ live, previous.liveIn cut = .ok live := by
  obtain ⟨_, hall, -, hclaims⟩ := allClaims_ok hkept.shows hkept.filed
  rw [hprevious] at hall
  cases hall
  simp only [Readable, hkept.shows.ownerFor, Except.ok.injEq, ← hclaims]
  constructor
  · exact ClaimProjection.liveIn_ok
  · rintro ⟨live, hlive⟩ resource holder howner
    rcases (ClaimProjection.of_liveIn hlive).2.2 resource holder howner with hyes | hno
    · exact ⟨true, hyes⟩
    · exact ⟨false, hno⟩

/-- An acquisition whose live holders are its own, under its own name, goes through. -/
theorem Kept.publish_ok (hkept : bus.Kept)
    (hchange : draft.change = .acquisition claims generation scope) (hbounded : draft.Bounded)
    (hreadable : Readable bus cut)
    (hunused : ∀ operationId ∈ scope.operationIds, operationId ∉ bus.operations)
    (hown : ∀ holder, LiveHolder bus cut claims holder →
      holder.owner = draft.owner ∧ holder.incarnation = draft.incarnation) :
    ∃ after, bus.publish cut draft = .ok after := by
  obtain ⟨previous, hprevious, -⟩ := allClaims_ok hkept.shows hkept.filed
  obtain ⟨live, hlive⟩ := (hkept.readable_iff hprevious).mp hreadable
  obtain ⟨transition, hbuild⟩ := hbounded.build_ok bus.nextSeq
  obtain ⟨howner, hincarnation, -, hbuilt⟩ := ClaimTransition.of_make hbuild
  rw [hchange] at hbuilt
  obtain ⟨after, hpublish⟩ := hkept.publish_acquisition hbuild hbuilt hprevious hlive
  refine ⟨after, hpublish.trans (bind_eq_ok.mpr ⟨(), ?_, bind_eq_ok.mpr ⟨(), ?_, rfl⟩⟩)⟩
  · refine (requireHolders_eq_ok hbuilt).mpr fun resource hmem holder hget => ?_
    rw [howner, hincarnation]
    exact hown holder ((hkept.liveHolder_iff hprevious hlive).mpr ⟨resource, hmem, hget⟩)
  · refine forM_eq_ok.mpr fun operationId hmem => require_eq_ok.mpr (decide_eq_false ?_)
    rw [ClaimTransition.operationIds, hbuilt] at hmem
    exact hunused operationId hmem

/-- An acquisition raises a conflict exactly when it could be checked and a live holder
of one of its resources is recorded under another name or incarnation. -/
theorem Kept.conflict_iff (hkept : bus.Kept)
    (hchange : draft.change = .acquisition claims generation scope) :
    (∃ existing, bus.publish cut draft = .error (.conflict existing)) ↔
      draft.Bounded ∧ Readable bus cut ∧ ∃ holder, LiveHolder bus cut claims holder ∧
        ¬ (holder.owner = draft.owner ∧ holder.incarnation = draft.incarnation) := by
  obtain ⟨previous, hprevious, -⟩ := allClaims_ok hkept.shows hkept.filed
  rw [hkept.readable_iff hprevious]
  by_cases hbounded : draft.Bounded
  · obtain ⟨transition, hbuild⟩ := hbounded.build_ok bus.nextSeq
    obtain ⟨howner, hincarnation, -, hbuilt⟩ := ClaimTransition.of_make hbuild
    cases hlive : previous.liveIn cut with
    | error error =>
      have hpublish : bus.publish cut draft = .error error := by
        simp [publish, prepareClaim, ClaimTransition.apply, hbuild, hprevious, hlive, bind,
          Except.bind]
      rw [hpublish]
      simp only [Except.error.injEq, reduceCtorEq, exists_false, false_and, and_false, iff_false]
      rintro ⟨existing, rfl⟩
      exact ClaimProjection.liveIn_ne_conflict existing hlive
    | ok live =>
      obtain ⟨after, hpublish⟩ := hkept.publish_acquisition hbuild (hbuilt.trans hchange) hprevious
        hlive
      simp only [hkept.liveHolder_iff hprevious hlive, ← howner, ← hincarnation, hpublish]
      constructor
      · rintro ⟨existing, hrefused⟩
        refine ⟨hbounded, ⟨live, rfl⟩, ?_⟩
        by_contra hnone
        push Not at hnone
        have hholders : transition.requireHolders live = .ok () :=
          (requireHolders_eq_ok (hbuilt.trans hchange)).mpr fun resource hmem holder hget =>
            hnone holder ⟨resource, hmem, hget⟩
        rw [hholders] at hrefused
        rcases bind_eq_error.mp hrefused with hfirst | ⟨_, -, hsecond⟩
        · cases hfirst
        · rcases bind_eq_error.mp hsecond with hused | ⟨_, -, hpure⟩
          · obtain ⟨_, -, hround⟩ := forM_eq_error hused
            cases (require_eq_error.mp hround).2
          · cases hpure
      · rintro ⟨-, -, holder, ⟨resource, hmem, hget⟩, hother⟩
        cases hcheck : transition.requireHolders live with
        | ok =>
          exact absurd ((requireHolders_eq_ok (hbuilt.trans hchange)).mp hcheck resource hmem holder
            hget) hother
        | error =>
          rw [ClaimTransition.requireHolders, hbuilt.trans hchange] at hcheck
          obtain ⟨named, -, hround⟩ := forM_eq_error hcheck
          cases hnamed : live.claims.get? named with
          | none =>
            rw [hnamed] at hround
            cases hround
          | some existing =>
            rw [hnamed] at hround
            obtain ⟨-, rfl⟩ := require_eq_error.mp hround
            exact ⟨existing, rfl⟩
  · have hrefused : ∃ message, bus.publish cut draft = .error (.transition message) := by
      unfold publish Draft.build ClaimTransition.make
      split
      next hlength =>
        rw [dif_neg fun hdistinct => hbounded ⟨hlength, hdistinct⟩]
        exact ⟨_, rfl⟩
      · exact ⟨_, rfl⟩
    obtain ⟨message, hmessage⟩ := hrefused
    simp [hmessage, hbounded]

end ClaimBus

theorem acquisition_conflicts_iff (ops : List Op)
    (hchange : draft.change = .acquisition claims generation scope) :
    -- a conflict is raised only for a live claim of another incarnation,
    (((∃ existing, (reached ops).publish cut draft = .error (.conflict existing)) → ∃ holder,
      LiveHolder (reached ops) cut claims holder ∧ holder.incarnation ≠ draft.incarnation) ∧
    -- and where no other incarnation holds the resources they are acquired
    (draft.Bounded → Readable (reached ops) cut →
      (∀ operationId ∈ scope.operationIds, operationId ∉ (reached ops).operations) →
      (∀ holder, LiveHolder (reached ops) cut claims holder →
        holder.incarnation = draft.incarnation) →
      ∃ after, (reached ops).publish cut draft = .ok after)) ↔
    -- exactly when no live claim of the same incarnation is alone under another name
    (draft.Bounded → Readable (reached ops) cut →
      ∀ renamed, LiveHolder (reached ops) cut claims renamed →
        renamed.incarnation = draft.incarnation → renamed.owner ≠ draft.owner →
        ∃ holder, LiveHolder (reached ops) cut claims holder ∧
          holder.incarnation ≠ draft.incarnation) := by
  have hkept := ClaimBus.reached_kept ops
  rw [hkept.conflict_iff hchange]
  constructor
  · rintro ⟨hconflict, -⟩ hbounded hreadable renamed hlive hsame hname
    exact hconflict ⟨hbounded, hreadable, renamed, hlive, fun hown => hname hown.1⟩
  · intro hrenamed
    constructor
    · rintro ⟨hbounded, hreadable, holder, hlive, hother⟩
      by_cases hsame : holder.incarnation = draft.incarnation
      · exact hrenamed hbounded hreadable holder hlive hsame fun hown => hother ⟨hown, hsame⟩
      · exact ⟨holder, hlive, hsame⟩
    · intro hbounded hreadable hunused hown
      refine hkept.publish_ok hchange hbounded hreadable hunused fun holder hlive => ?_
      refine ⟨?_, hown holder hlive⟩
      by_contra hname
      obtain ⟨other, hother, hforeign⟩ :=
        hrenamed hbounded hreadable holder hlive (hown holder hlive) hname
      exact hforeign (hown other hother)

/-! ### A renamed holder -/

def boundThread : Thread := ⟨{ sampleFields with processIdentity := .process 7 1 }, by decide⟩

def liveEnvironment : Environment := { sampleEnvironment with processAlive := fun _ _ => true }

def sampleCut : RegistryCut where
  snapshot :=
    { threads := Dict.empty.set "alpha" boundThread
      statuses := Dict.empty.set "alpha" .process
      lastSeen := Dict.empty.set "alpha" 0
      aliases := Dict.empty
      ownerGenerations := Dict.empty.set "alpha" 1
      claimedGenerations := Dict.empty.set "alpha" 1
      rowNames := by decide
      aliasNames := by decide
      distinctBirths := by decide }
  observed := fun _ => liveEnvironment

def sampleDraft (owner : Name) (operationId : String) : Draft where
  owner := owner
  incarnation := 1
  messageId := operationId
  change := .acquisition ["/repo/file"] operationId
    (.recorded ⟨1, operationId, "turn", .nativeClaim "input", by decide, trivial⟩)

def laterDraft (owner : Name) : Draft :=
  { sampleDraft owner "two" with
    change := .acquisition ["/repo/file"] "two"
      (.recorded ⟨1, "two", "later", .nativeClaim "later", Nat.one_pos, trivial⟩) }

/-- Under the same name the thread acquires its resource again in a later turn. -/
theorem acquisition_conflicts_later_turn :
    ∃ after, (reached [.append sampleCut (sampleDraft "alpha" "one")]).publish
      sampleCut (laterDraft "alpha") = .ok after := by
  have hheld : ∀ resource holder,
      (reached [.append sampleCut (sampleDraft "alpha" "one")]).ownerFor resource =
        .ok (some holder) → holder.owner = "alpha" ∧ holder.incarnation = 1 ∧
          holder.liveIn sampleCut = .ok true := by
    intro resource holder howner
    by_cases hfile : resource = "/repo/file"
    · subst hfile
      cases howner
      exact ⟨rfl, rfl, rfl⟩
    · have hnone : (reached [.append sampleCut (sampleDraft "alpha" "one")]).held.get?
          resource = none := Dict.get?_set_of_ne Dict.empty 1 hfile
      rw [ClaimBus.ownerFor, hnone] at howner
      cases howner
  refine ((acquisition_conflicts_iff [.append sampleCut (sampleDraft "alpha" "one")]
    (show (laterDraft "alpha").change = .acquisition _ _ _ from rfl)).mpr ?_).2
      ⟨by decide, by decide⟩ (fun resource holder howner =>
        ⟨true, (hheld resource holder howner).2.2⟩) (by decide) ?_
  · rintro - - renamed ⟨resource, -, howner, -⟩ - hname
    exact absurd (hheld resource renamed howner).1 hname
  · rintro holder ⟨resource, -, howner, -⟩
    exact (hheld resource holder howner).2.1

/-- After a rename the thread is refused its own claim in its next turn. -/
theorem renamed_holder_conflicts :
    let registered := run RegistryOp.perform
      [(liveEnvironment, .register boundThread .process false)] .empty
    let renamed := run RegistryOp.perform [(liveEnvironment, .rename "alpha" "beta")] registered
    ∃ before after bus, registered.capture = .ok before ∧ renamed.capture = .ok after ∧
      ClaimBus.empty.publish ⟨before, fun _ => liveEnvironment⟩ (sampleDraft "alpha" "one") =
        .ok bus ∧
      (after.threads.get? "beta").map Thread.birth = some 1 ∧
      after.claimedGenerations.get? "beta" = before.claimedGenerations.get? "alpha" ∧
      (bus.publish ⟨after, fun _ => liveEnvironment⟩ (laterDraft "beta") matches
        .error (.conflict ⟨"alpha", 1, _, _, _, _, _⟩)) :=
  ⟨_, _, _, rfl, rfl, rfl, by decide +kernel⟩

end AgentComms.Claims
