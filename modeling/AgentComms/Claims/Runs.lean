import AgentComms.Claims.Tables
import AgentComms.Registry.Wire

/-!
# Runs of claim publications

Any owners publish on one bus, each against its own registry snapshot, with other
records in between; a refused publication rolls back. `claims_never_stolen` says
when a recorded holder can change in such a run and that an operation is consumed
once.
-/

namespace AgentComms.Claims

open Library Registry

inductive Op where
  /-- `Bus.acquire_resource_claim`. -/
  | acquire (resource : String) (claim : RecordedScope) (env : Environment) (cut : RegistryCut)
      (draft : Draft)
  /-- `Bus.append` of a claim record. -/
  | append (cut : RegistryCut) (draft : Draft)
  /-- A record without a claim transition. -/
  | other

def Op.prepares : Op → Option (RegistryCut × Draft)
  | acquire _ _ _ cut draft => some (cut, draft)
  | append cut draft => some (cut, draft)
  | other => none

def perform : Op → ClaimBus → Checked ClaimBus
  | .acquire resource claim env cut draft, bus =>
    Prod.snd <$> bus.acquireResourceClaim resource claim env cut draft
  | .append cut draft, bus => bus.publish cut draft
  | .other, bus => .ok { bus with records := bus.records ++ [none] }

def reached (ops : List Op) : ClaimBus := run perform ops ClaimBus.empty

variable {bus after : ClaimBus}

/-- What one publication does: nothing, another record, or its checked draft. -/
theorem perform_cases {op : Op} (hok : perform op bus = .ok after) :
    after = bus ∨ op.prepares = none ∧ after = { bus with records := bus.records ++ [none] } ∨
      ∃ cut draft, op.prepares = some (cut, draft) ∧ bus.publish cut draft = .ok after := by
  cases op with
  | acquire resource claim env cut draft =>
    obtain ⟨⟨holder, _⟩, hacquire, rfl⟩ := map_eq_ok.mp hok
    simp only [ClaimBus.acquireResourceClaim, bind_eq_ok] at hacquire
    obtain ⟨reused, -, hacquire⟩ := hacquire
    cases reused <;> simp only [do_eq_ok] at hacquire
    · obtain ⟨published, hpublish, _, -, _, -, -, rfl⟩ := hacquire
      exact .inr (.inr ⟨cut, draft, rfl, hpublish⟩)
    · exact .inl hacquire.2.symm
  | append cut draft => exact .inr (.inr ⟨cut, draft, rfl, hok⟩)
  | other =>
    cases hok
    exact .inr (.inl ⟨rfl, rfl⟩)

namespace ClaimBus

variable {bus after : ClaimBus} {cut : RegistryCut} {draft : Draft}

def transitions (bus : ClaimBus) : List ClaimTransition := bus.records.filterMap id

def table (bus : ClaimBus) : ClaimTable := bus.transitions.foldl ClaimTable.record .empty

/-- The log is numbered, its transitions can be projected in order, the tables are what
they leave, and each operation is filed under the transition that consumed it. -/
structure Kept (bus : ClaimBus) : Prop where
  numbered : ∀ seq transition, bus.transitionAt seq = some transition → transition.seq = seq
  admits : ClaimTable.empty.AdmitsAll bus.transitions
  shows : bus.Shows bus.lastSeq bus.table
  recorded : ∀ seq transition, bus.transitionAt seq = some transition →
    ∀ operationId ∈ transition.operationIds, bus.table.used operationId = some seq

theorem Kept.filed (hkept : bus.Kept) : bus.table.Filed :=
  ClaimTable.filed_empty.foldl hkept.admits

/-- What a publication checked, and the table that it left. -/
theorem Kept.of_publish (hkept : bus.Kept) (hok : bus.publish cut draft = .ok after) :
    ∃ transition previous projected prepared, draft.build bus.nextSeq = .ok transition ∧
      bus.allClaims = .ok previous ∧ transition.apply previous cut = .ok projected ∧
      Prepared bus.table cut transition prepared ∧ prepared.seq = bus.nextSeq ∧
      projected.lastSeq = prepared.seq ∧
      (∀ resource, projected.claims.get? resource = (bus.table.record prepared).owner resource) ∧
      after.records = bus.records ++ [some prepared] ∧
      after.Shows after.lastSeq (bus.table.record prepared) := by
  simp only [publish, bind_eq_ok] at hok
  obtain ⟨transition, hbuild, prepared, hprepare, happend⟩ := hok
  obtain ⟨previous, projected, hprevious, happly, hprepared, hprojectedSeq, hprojected⟩ :=
    of_prepareClaim hkept.shows hkept.filed hprepare
  have hseq : prepared.seq = bus.nextSeq := by
    rw [hprepared.fields]
    exact (ClaimTransition.of_make hbuild).2.2.1
  obtain ⟨stored, hstored, hrecords, hshows⟩ :=
    append_ok hkept.shows hkept.filed hprepared.admits hseq
  rw [happend] at hstored
  cases hstored
  exact ⟨transition, previous, projected, prepared, hbuild, hprevious, happly, hprepared, hseq,
    hprojectedSeq, hprojected, hrecords, hshows⟩

theorem kept_of_perform {op : Op} (hkept : bus.Kept) (hok : perform op bus = .ok after) :
    after.Kept := by
  rcases perform_cases hok with rfl | ⟨-, rfl⟩ | ⟨cut, draft, -, hpublish⟩
  · exact hkept
  · have htransitions : ({ bus with records := bus.records ++ [none] } : ClaimBus).transitions =
        bus.transitions := by simp [transitions]
    have hbefore : ∀ seq transition, ({ bus with records := bus.records ++ [none] } :
        ClaimBus).transitionAt seq = some transition → bus.transitionAt seq = some transition := by
      intro seq transition hat
      exact (transitionAt_cases rfl hat).resolve_right nofun
    refine ⟨fun seq transition hat => hkept.numbered seq transition (hbefore seq transition hat),
      htransitions ▸ hkept.admits, ?_, fun seq transition hat => ?_⟩
    · rw [table, htransitions, lastSeq, List.length_append]
      exact hkept.shows.extend.skip (transitionAt_nextSeq rfl)
    · rw [table, htransitions]
      exact hkept.recorded seq transition (hbefore seq transition hat)
  · obtain ⟨_, _, _, prepared, -, -, -, hprepared, hseq, -, -, hrecords, hshows⟩ :=
      hkept.of_publish hpublish
    have htransitions : after.transitions = bus.transitions ++ [prepared] := by
      simp [transitions, hrecords]
    have htable : after.table = bus.table.record prepared := by
      rw [table, htransitions, List.foldl_append]
      rfl
    refine ⟨fun seq transition hat => ?_, ?_, htable ▸ hshows,
      fun seq transition hat operationId hmem => ?_⟩
    · rcases transitionAt_cases hrecords hat with hbefore | ⟨rfl, hnew⟩
      · exact hkept.numbered seq transition hbefore
      · cases hnew
        exact hseq
    · rw [htransitions, ClaimTable.admitsAll_append]
      exact ⟨hkept.admits, hprepared.admits, trivial⟩
    · rw [htable, ClaimTable.record]
      rcases transitionAt_cases hrecords hat with hbefore | ⟨rfl, hnew⟩
      · -- the new transition consumes only unused operations
        have hused := hkept.recorded seq transition hbefore operationId hmem
        refine (if_neg fun hown => ?_).trans hused
        rw [hprepared.admits.unused operationId hown] at hused
        cases hused
      · cases hnew
        rw [← hseq]
        exact if_pos hmem

theorem reached_kept (ops : List Op) : (reached ops).Kept :=
  run_invariant Kept (fun _ _ _ => kept_of_perform) ops
    { numbered := fun seq _ hat => by cases seq <;> cases hat
      admits := trivial
      shows := ⟨rfl, fun _ => rfl, nofun, fun _ => rfl⟩
      recorded := fun seq _ hat => by cases seq <;> cases hat }

end ClaimBus

def HeldBy (bus : ClaimBus) (resource : String) (incarnation : Nat) (generation : String) : Prop :=
  ∃ holder, bus.ownerFor resource = .ok (some holder) ∧ holder.incarnation = incarnation ∧
    holder.generation = generation

/-- The draft may end this holder's claim: it releases the exact generation, or
acquires the resource for the same owner. -/
def Draft.Ends (draft : Draft) (holder : ClaimOwner) : Prop :=
  match draft.change with
  | .release releases => draft.incarnation = holder.incarnation ∧
      ⟨holder.resource, holder.generation⟩ ∈ releases
  | .acquisition claims _ _ => holder.resource ∈ claims ∧ draft.owner = holder.owner ∧
      draft.incarnation = holder.incarnation

theorem heldBy_of_ownerFor {bus : ClaimBus} {resource : String} {holder : ClaimOwner}
    (howner : bus.ownerFor resource = .ok (some holder)) :
    HeldBy bus resource holder.incarnation holder.generation :=
  ⟨holder, howner, rfl, rfl⟩

/-- A holder that a publication does not find dead is ended only by its own draft. -/
theorem ends_of_publish {cut : RegistryCut} {draft : Draft}
    (hkept : bus.Kept) (hpublish : bus.publish cut draft = .ok after) {resource : String}
    {holder : ClaimOwner} (howner : bus.table.owner resource = some holder)
    (hlive : holder.liveIn cut ≠ .ok false) :
    after.ownerFor resource = .ok (some holder) ∨ draft.Ends holder := by
  obtain ⟨transition, _, _, prepared, hbuild, -, -, hprepared, -, -, -, -, hshows⟩ :=
    hkept.of_publish hpublish
  obtain ⟨hdraftOwner, hdraftIncarnation, -, hchange⟩ := ClaimTransition.of_make hbuild
  obtain ⟨hfields, hadmits, hdead, hown⟩ := hprepared
  by_cases hmem : resource ∈ draft.change.resources
  · refine .inr ?_
    have hresource := (hkept.filed resource holder howner).1
    unfold Draft.Ends
    cases hdraft : draft.change with
    | acquisition claims generation scope =>
      rw [hdraft] at hmem hchange
      rcases hown claims generation scope hchange resource hmem holder howner with hno | hsame
      · exact absurd hno hlive
      · rw [hresource, ← hdraftOwner, ← hdraftIncarnation]
        exact ⟨hmem, hsame.1.symm, hsame.2.symm⟩
    | release releases =>
      rw [hdraft] at hmem hchange
      obtain ⟨release, hrelease, rfl⟩ := List.mem_map.mp hmem
      obtain ⟨-, current, hcurrent, hincarnation, hgeneration⟩ := hadmits.follows.released releases
        (by rw [hfields]; exact hchange) release hrelease
      rw [howner] at hcurrent
      cases hcurrent
      rw [hfields] at hincarnation
      rw [hresource, hgeneration, ← hdraftIncarnation]
      exact ⟨hincarnation.symm, hrelease⟩
  · refine .inl ((hshows.ownerFor resource).trans (congrArg Except.ok ?_))
    have hnot : resource ∉ prepared.resources := by
      rw [hfields, ClaimTransition.resources]
      exact hchange ▸ hmem
    show (if resource ∈ prepared.resources then _ else _) = _
    rw [if_neg hnot, if_neg fun hgone => hlive (hdead resource hgone holder howner), howner]

/-- The draft acquires a resource that another incarnation holds and is live. -/
def Draft.Conflicts (draft : Draft) (bus : ClaimBus) (cut : RegistryCut) : Prop :=
  match draft.change with
  | .acquisition claims _ _ => ∃ resource ∈ claims, ∃ holder,
      bus.ownerFor resource = .ok (some holder) ∧ holder.liveIn cut = .ok true ∧
        ¬ (draft.owner = holder.owner ∧ draft.incarnation = holder.incarnation)
  | .release _ => False

theorem not_conflicts_of_publish {cut : RegistryCut} {draft : Draft}
    (hkept : bus.Kept) (hpublish : bus.publish cut draft = .ok after) :
    ¬ draft.Conflicts bus cut := by
  obtain ⟨transition, _, _, prepared, hbuild, -, -, hprepared, -⟩ := hkept.of_publish hpublish
  obtain ⟨hdraftOwner, hdraftIncarnation, -, hchange⟩ := ClaimTransition.of_make hbuild
  unfold Draft.Conflicts
  split
  next claims generation scope hdraft =>
    rintro ⟨resource, hmem, holder, howner, hlive, hforeign⟩
    rw [hkept.shows.ownerFor, Except.ok.injEq] at howner
    rcases hprepared.own claims generation scope (hchange.trans hdraft) resource hmem holder howner
      with hno | hsame
    · rw [hlive] at hno
      cases hno
    · rw [hdraftOwner, hdraftIncarnation] at hsame
      exact hforeign ⟨hsame.1.symm, hsame.2.symm⟩
  · exact not_false

theorem reached_concat (ops : List Op) (op : Op) :
    reached (ops ++ [op]) = commit (perform op) (reached ops) :=
  run_append perform ops [op] ClaimBus.empty

theorem claims_never_stolen (ops : List Op) (op : Op) :
    -- a publication ends a claim only as its own, or after finding its holder dead
    (∀ resource holder, (reached ops).ownerFor resource = .ok (some holder) →
      ¬ HeldBy (reached (ops ++ [op])) resource holder.incarnation holder.generation →
        ∃ cut draft, op.prepares = some (cut, draft) ∧
          (draft.Ends holder ∨ holder.liveIn cut = .ok false)) ∧
    -- a refused publication leaves the log and both tables as they were
    (∀ error, perform op (reached ops) = .error error → reached (ops ++ [op]) = reached ops) ∧
    -- and so does one that meets a live foreign holder or repeats an operation
    (∀ cut draft, op.prepares = some (cut, draft) →
      draft.Conflicts (reached ops) cut ∨
        (∃ operationId ∈ draft.change.operationIds, operationId ∈ (reached ops).operations) →
      reached (ops ++ [op]) = reached ops) ∧
    -- no operation is recorded by two transitions
    ∀ seq seq' transition transition' operationId,
      (reached ops).transitionAt seq = some transition →
      (reached ops).transitionAt seq' = some transition' →
      operationId ∈ transition.operationIds → operationId ∈ transition'.operationIds →
        seq = seq' := by
  rw [reached_concat]
  have hkept := ClaimBus.reached_kept ops
  refine ⟨fun resource holder howner hended => ?_, fun error hrefused => ?_,
    fun cut draft hprepares hblocked => ?_,
    fun seq seq' transition transition' operationId hat hat' hmem hmem' => ?_⟩
  · have htable := howner
    rw [hkept.shows.ownerFor, Except.ok.injEq] at htable
    rcases commit_cases (perform op) (reached ops) with hok | hsame
    · rcases perform_cases hok with hsame | ⟨-, hother⟩ | ⟨cut, draft, hprepares, hpublish⟩
      · rw [hsame] at hended
        exact absurd (heldBy_of_ownerFor howner) hended
      · refine absurd (heldBy_of_ownerFor ?_) hended
        rw [hother, (hkept.shows.extend).ownerFor, htable]
      · refine ⟨cut, draft, hprepares, ?_⟩
        by_cases hlive : holder.liveIn cut = .ok false
        · exact .inr hlive
        · exact .inl ((ends_of_publish hkept hpublish htable hlive).resolve_left fun hstays =>
            hended (heldBy_of_ownerFor hstays))
    · rw [hsame] at hended
      exact absurd (heldBy_of_ownerFor howner) hended
  · unfold commit
    rw [hrefused]
  · rcases commit_cases (perform op) (reached ops) with hok | hsame
    · rcases perform_cases hok with hsame | ⟨hnone, -⟩ | ⟨_, _, hprepares', hpublish⟩
      · exact hsame
      · rw [hnone] at hprepares
        cases hprepares
      · rw [hprepares] at hprepares'
        cases hprepares'
        rcases hblocked with hconflict | ⟨operationId, hmem, hused⟩
        · exact absurd hconflict (not_conflicts_of_publish hkept hpublish)
        · obtain ⟨transition, _, _, prepared, hbuild, -, -, hprepared, -⟩ :=
            hkept.of_publish hpublish
          have hown : operationId ∈ prepared.operationIds := by
            rw [hprepared.fields, ClaimTransition.operationIds]
            exact (ClaimTransition.of_make hbuild).2.2.2 ▸ hmem
          rw [Dict.mem_iff, hkept.shows.operations, hprepared.admits.unused _ hown] at hused
          obtain ⟨_, hnone⟩ := hused
          cases hnone
    · exact hsame
  · have hseq := hkept.recorded seq transition hat operationId hmem
    have hseq' := hkept.recorded seq' transition' hat' operationId hmem'
    rw [hseq] at hseq'
    exact Option.some.inj hseq'

end AgentComms.Claims
