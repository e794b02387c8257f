import AgentComms.Claims.Runs

/-!
# Rebuilding the claim tables

The two tables can be rebuilt from the log: in one pass that carries the holders it
projected, or from the tables as they stood after a prefix. `claim_projections_agree`
compares both with the tables that the appends kept and with the projections that the
publications computed.
-/

namespace AgentComms.Claims

open Library Registry

namespace ClaimBus

theorem records_of_run (ops : List Op) (bus : ClaimBus) :
    bus.records <+: (run perform ops bus).records := by
  refine run_invariant (fun after : ClaimBus => bus.records <+: after.records)
    (fun op before after hprior hok => ?_) ops List.prefix_rfl
  rcases perform_cases hok with rfl | ⟨-, rfl⟩ | ⟨cut, draft, -, hpublish⟩
  · exact hprior
  · exact hprior.trans (List.prefix_append _ _)
  · simp only [publish, append, applyHeld, do_eq_ok] at hpublish
    obtain ⟨_, -, prepared, -, _, -, _, -, _, -, rfl⟩ := hpublish
    exact hprior.trans (List.prefix_append _ _)

def replay (bus : ClaimBus) (after : Nat) : Checked ClaimBus :=
  ((bus.records.drop after).filterMap id).foldlM projectStored bus

theorem replay_ok (more : List (Option ClaimTransition)) {bus : ClaimBus} {table : ClaimTable}
    {through : Nat} (hmore : bus.records.drop through = more)
    (hnumbered : ∀ index transition, more[index]? = some (some transition) →
      transition.seq = through + index + 1)
    (hshows : bus.Shows through table) (hfiled : table.Filed)
    (hadmits : table.AdmitsAll (more.filterMap id)) :
    ∃ rebuilt, (more.filterMap id).foldlM projectStored bus = .ok rebuilt ∧
      rebuilt.Shows (through + more.length)
        ((more.filterMap id).foldl ClaimTable.record table) := by
  induction more generalizing bus table through with
  | nil => exact ⟨bus, rfl, hshows⟩
  | cons record more ih =>
    have hat : bus.transitionAt (through + 1) = record := by
      have hfirst := congrArg (·[0]?) hmore
      simp only [List.getElem?_drop, List.getElem?_cons_zero, Nat.add_zero] at hfirst
      rw [transitionAt, hfirst, Option.join_some]
    have hrest : bus.records.drop (through + 1) = more := by
      rw [← List.tail_drop, hmore, List.tail_cons]
    have hlater : ∀ index transition, more[index]? = some (some transition) →
        transition.seq = through + 1 + index + 1 := by
      intro index transition hindex
      rw [hnumbered (index + 1) transition hindex]
      omega
    rw [List.length_cons, ← Nat.add_assoc, Nat.add_right_comm]
    cases record with
    | none => exact ih hrest hlater (hshows.skip hat) hfiled hadmits
    | some transition =>
      have hseq : transition.seq = through + 1 := hnumbered 0 transition rfl
      obtain ⟨hfirst, hadmitted⟩ := hadmits
      rw [← hseq] at hat
      have hbefore : bus.Shows (transition.seq - 1) table := by
        rw [hseq]
        exact hshows
      obtain ⟨next, hnext, hrecords, hnextShows⟩ := projectStored_ok hbefore hfiled hfirst hat
      obtain ⟨rebuilt, hrebuilt, hfinal⟩ := ih (hrecords ▸ hrest) hlater (hseq ▸ hnextShows)
        (hfiled.record hfirst) hadmitted
      exact ⟨rebuilt, bind_eq_ok.mpr ⟨next, hnext, hrebuilt⟩, hfinal⟩

end ClaimBus

/-- The holders that a rebuild projected, and the operation rows it will insert. -/
structure ReplayedHolders where
  lastSeq : Nat
  owners : Dict String ClaimOwner
  operations : List String
  rows : List (String × Nat)

namespace ReplayedHolders

variable {holders : ReplayedHolders} {table : ClaimTable} {transition : ClaimTransition}

def start : ReplayedHolders := ⟨0, Dict.empty, [], []⟩

section

variable (holders : ReplayedHolders)

def before (transition : ClaimTransition) : Checked ClaimProjection :=
  ClaimProjection.build holders.lastSeq
    (holders.owners.filter fun resource _ => resource ∈ transition.resources)

def advance (removed : List String) (projected : ClaimProjection) : ReplayedHolders :=
  { holders with
    lastSeq := projected.lastSeq
    owners := (holders.owners.filter fun resource _ => resource ∉ removed).update
      projected.claims }

def apply (transition : ClaimTransition) (projected : ClaimProjection) : ReplayedHolders :=
  { holders with
    operations := transition.operationIds ++ holders.operations
    rows := holders.rows ++ transition.operationIds.map (·, transition.seq) }.advance
      (transition.resources ++ transition.expired) projected

def project (transition : ClaimTransition) : Checked ReplayedHolders := do
  let projected ← transition.projectFrom (· ∈ holders.operations) (holders.before transition)
  pure (holders.apply transition projected)

def flush (bus : ClaimBus) : Checked ClaimBus := do
  let held ← holders.owners.values.foldlM (fun held holder =>
    held.insertNew holder.resource holder.seq (.relationViolation "UNIQUE constraint failed"))
    bus.held
  let operations ← holders.rows.foldlM (fun operations row =>
    operations.insertNew row.1 row.2 (.relationViolation "UNIQUE constraint failed"))
    bus.operations
  pure { bus with held := held, operations := operations }

end

structure Carries (holders : ReplayedHolders) (table : ClaimTable) : Prop where
  lastSeq : holders.lastSeq = table.lastSeq
  owners : ∀ resource, holders.owners.get? resource = table.owner resource
  operations : ∀ operationId, operationId ∈ holders.operations ↔ table.used operationId ≠ none
  distinct : (holders.rows.map Prod.fst).Nodup
  rows : ∀ operationId seq, (operationId, seq) ∈ holders.rows ↔ table.used operationId = some seq

theorem carries_start : start.Carries .empty where
  lastSeq := rfl
  owners _ := rfl
  operations := by simp [start, ClaimTable.empty]
  distinct := List.nodup_nil
  rows := by simp [start, ClaimTable.empty]

theorem project_ok (hcarries : holders.Carries table) (hfiled : table.Filed)
    (hadmits : table.Admits transition) :
    ∃ next, holders.project transition = .ok next ∧ next.Carries (table.record transition) := by
  have hget : ∀ resource, (holders.owners.filter fun resource _ =>
      decide (resource ∈ transition.resources)).get? resource =
        if resource ∈ transition.resources then table.owner resource else none := by
    intro resource
    rw [Dict.get?_filter_key, hcarries.owners]
  have hbuilt : ∀ entry ∈ (holders.owners.filter fun resource _ =>
      decide (resource ∈ transition.resources)).entries,
        entry.2.resource = entry.1 ∧ entry.2.seq ≤ table.lastSeq := by
    intro entry hentry
    have hrow := Dict.mem_entries.mp hentry
    rw [hget] at hrow
    split at hrow
    · exact hfiled _ _ hrow
    · cases hrow
  obtain ⟨previous, hbefore, hseq, hclaims⟩ : ∃ previous, holders.before transition = .ok previous ∧
      previous.lastSeq = table.lastSeq ∧ ∀ resource, previous.claims.get? resource =
        if resource ∈ transition.resources then table.owner resource else none :=
    ⟨⟨table.lastSeq, _, hbuilt⟩, ClaimProjection.build_eq_ok.mpr ⟨hcarries.lastSeq.symm, rfl⟩, rfl,
      hget⟩
  have hunused : ∀ operationId, table.used operationId = none →
      decide (operationId ∈ holders.operations) = false := fun operationId hnone =>
    decide_eq_false fun hmem => (hcarries.operations operationId).mp hmem hnone
  obtain ⟨projected, hproject, hprojectedSeq, hrows⟩ := hadmits.projectFrom_ok hunused hseq hclaims
  rw [← hbefore] at hproject
  refine ⟨_, bind_eq_ok.mpr ⟨projected, hproject, rfl⟩, hprojectedSeq, fun resource => ?_,
    fun operationId => ?_, ?_, fun operationId seq => ?_⟩
  · simp only [apply, advance, Dict.get?_update, Dict.get?_filter_key, hrows, hcarries.owners,
      ClaimTable.record]
    by_cases hnamed : resource ∈ transition.resources <;>
      by_cases hexpired : resource ∈ transition.expired <;> simp [hnamed, hexpired]
  · simp only [apply, advance, ClaimTable.record, List.mem_append, hcarries.operations]
    by_cases hown : operationId ∈ transition.operationIds <;> simp [hown]
  · simp only [apply, advance, List.map_append, List.map_map, Function.comp_def, List.map_id']
    refine List.nodup_append'.mpr ⟨hcarries.distinct, transition.operationIds_nodup, ?_⟩
    intro operationId hrow hown
    obtain ⟨⟨_, seq⟩, hmem, rfl⟩ := List.mem_map.mp hrow
    rw [hcarries.rows, hadmits.unused _ hown] at hmem
    cases hmem
  · simp only [apply, advance, ClaimTable.record, List.mem_append, hcarries.rows, List.mem_map,
      Prod.mk.injEq]
    by_cases hown : operationId ∈ transition.operationIds
    · simp [hown, hadmits.unused operationId hown]
    · simp only [hown, if_false]
      refine or_iff_left ?_
      rintro ⟨other, hother, rfl, -⟩
      exact hown hother

theorem foldlM_project_ok (transitions : List ClaimTransition) {holders : ReplayedHolders}
    {table : ClaimTable} (hcarries : holders.Carries table) (hfiled : table.Filed)
    (hadmits : table.AdmitsAll transitions) :
    ∃ final, transitions.foldlM project holders = .ok final ∧
      final.Carries (transitions.foldl ClaimTable.record table) := by
  induction transitions generalizing holders table with
  | nil => exact ⟨holders, rfl, hcarries⟩
  | cons transition rest ih =>
    obtain ⟨next, hnext, hnextCarries⟩ := project_ok hcarries hfiled hadmits.1
    obtain ⟨final, hfinal, hfinalCarries⟩ := ih hnextCarries (hfiled.record hadmits.1) hadmits.2
    exact ⟨final, bind_eq_ok.mpr ⟨next, hnext, hfinal⟩, hfinalCarries⟩

theorem Carries.flush_ok (hcarries : holders.Carries table) (hfiled : table.Filed)
    {bus : ClaimBus} :
    ∃ rebuilt, holders.flush { bus with held := Dict.empty, operations := Dict.empty } =
        .ok rebuilt ∧
      (∀ resource, rebuilt.held.get? resource = (table.owner resource).map ClaimOwner.seq) ∧
      ∀ operationId, rebuilt.operations.get? operationId = table.used operationId := by
  have hresource : ∀ resource holder, holders.owners.get? resource = some holder →
      holder.resource = resource := fun resource holder hget =>
    (hfiled resource holder (hcarries.owners resource ▸ hget)).1
  have hnew : ∀ resource ∈ holders.owners, (Dict.empty : Dict String Nat).get? resource = none :=
    fun _ _ => rfl
  obtain ⟨held, hheld, hholders⟩ := ClaimBus.insertHolders hresource hnew
  obtain ⟨operations, hoperations, hstored, hothers⟩ :=
    Dict.foldlM_insertNew_ok holders.rows hcarries.distinct fun _ _ => Dict.not_mem_empty _
  refine ⟨_, bind_eq_ok.mpr ⟨held, hheld, bind_eq_ok.mpr ⟨operations, hoperations, rfl⟩⟩,
    fun resource => ?_, fun operationId => ?_⟩
  · rw [hholders, hcarries.owners]
    exact Option.or_none
  · cases hused : table.used operationId with
    | some seq => exact hstored (operationId, seq) ((hcarries.rows operationId seq).mpr hused)
    | none =>
      refine hothers operationId fun hmem => ?_
      obtain ⟨⟨_, seq⟩, hrow, rfl⟩ := List.mem_map.mp hmem
      rw [hcarries.rows, hused] at hrow
      cases hrow

end ReplayedHolders

def ClaimBus.rebuildRows (bus : ClaimBus) : Checked ClaimBus := do
  let holders ← bus.transitions.foldlM ReplayedHolders.project .start
  holders.flush { bus with held := Dict.empty, operations := Dict.empty }

def ClaimBus.SameTables (bus other : ClaimBus) : Prop :=
  (∀ resource, bus.held.get? resource = other.held.get? resource) ∧
    ∀ operationId, bus.operations.get? operationId = other.operations.get? operationId

theorem claim_projections_agree (ops : List Op) :
    -- a publication leaves in both tables what the full projection says
    (∀ cut draft after, (reached ops).publish cut draft = .ok after →
      ∃ transition previous projected stored,
        draft.build (reached ops).nextSeq = .ok transition ∧
        (reached ops).allClaims = .ok previous ∧ transition.apply previous cut = .ok projected ∧
        after.allClaims = .ok stored ∧ stored.lastSeq = projected.lastSeq ∧
        (∀ resource, stored.claims.get? resource = projected.claims.get? resource) ∧
        (∀ resource, after.held.get? resource =
          (projected.claims.get? resource).map ClaimOwner.seq) ∧
        ∀ operationId, after.operations.get? operationId =
          if operationId ∈ transition.operationIds then some transition.seq
          else (reached ops).operations.get? operationId) ∧
    -- a rebuild from the start gives the tables again
    (∃ rebuilt, (reached ops).rebuildRows = .ok rebuilt ∧ rebuilt.SameTables (reached ops)) ∧
    -- and so does one that continues from the tables after any prefix
    ∀ first rest, ops = first ++ rest → ∃ rebuilt,
      ({ reached first with records := (reached ops).records } : ClaimBus).replay
          (reached first).lastSeq = .ok rebuilt ∧
        rebuilt.SameTables (reached ops) := by
  have hkept := ClaimBus.reached_kept ops
  refine ⟨fun cut draft after hpublish => ?_, ?_, fun first rest hops => ?_⟩
  · obtain ⟨transition, previous, projected, prepared, hbuild, hprevious, happly, hprepared, -,
      hprojectedSeq, hprojected, -, hshows⟩ := hkept.of_publish hpublish
    obtain ⟨stored, hstored, hstoredSeq, hclaims⟩ :=
      ClaimBus.allClaims_ok hshows (hkept.filed.record hprepared.admits)
    refine ⟨transition, previous, projected, stored, hbuild, hprevious, happly, hstored,
      hstoredSeq.trans hprojectedSeq.symm, fun resource => by rw [hclaims, hprojected],
      fun resource => by rw [hshows.held, hprojected], fun operationId => ?_⟩
    rw [hshows.operations, hkept.shows.operations, hprepared.fields]
    rfl
  · obtain ⟨holders, hholders, hcarries⟩ := ReplayedHolders.foldlM_project_ok
      (reached ops).transitions ReplayedHolders.carries_start ClaimTable.filed_empty hkept.admits
    obtain ⟨rebuilt, hrebuilt, hheld, hoperations⟩ := hcarries.flush_ok hkept.filed
    exact ⟨rebuilt, bind_eq_ok.mpr ⟨holders, hholders, hrebuilt⟩,
      fun resource => (hheld resource).trans (hkept.shows.held resource).symm,
      fun operationId => (hoperations operationId).trans (hkept.shows.operations operationId).symm⟩
  · have hfirst := ClaimBus.reached_kept first
    obtain ⟨more, hmore⟩ : (reached first).records <+: (reached ops).records := by
      simp only [hops, reached, run_append]
      exact ClaimBus.records_of_run rest _
    have htransitions : (reached ops).transitions =
        (reached first).transitions ++ more.filterMap id := by
      rw [ClaimBus.transitions, ← hmore, List.filterMap_append]
      rfl
    have hadmits := hkept.admits
    rw [htransitions, ClaimTable.admitsAll_append] at hadmits
    have hdrop : ({ reached first with records := (reached ops).records } : ClaimBus).records.drop
        (reached first).lastSeq = more := by
      simp only [← hmore]
      exact List.drop_left
    have hnumbered : ∀ index transition, more[index]? = some (some transition) →
        transition.seq = (reached first).lastSeq + index + 1 := by
      intro index transition hindex
      refine hkept.numbered _ transition ?_
      rw [ClaimBus.transitionAt, ← List.getElem?_drop, hdrop, hindex, Option.join_some]
    have hshows : ({ reached first with records := (reached ops).records } : ClaimBus).Shows
        (reached first).lastSeq (reached first).table := hmore ▸ hfirst.shows.extend
    obtain ⟨rebuilt, hrebuilt, hrebuiltShows⟩ :=
      ClaimBus.replay_ok more hdrop hnumbered hshows hfirst.filed hadmits.2
    have htable : (more.filterMap id).foldl ClaimTable.record (reached first).table =
        (reached ops).table := by
      rw [ClaimBus.table, ClaimBus.table, htransitions, List.foldl_append]
    rw [htable] at hrebuiltShows
    refine ⟨rebuilt, ?_, fun resource => ?_, fun operationId => ?_⟩
    · rw [ClaimBus.replay]
      exact hdrop ▸ hrebuilt
    · rw [hrebuiltShows.held, hkept.shows.held]
    · rw [hrebuiltShows.operations, hkept.shows.operations]

end AgentComms.Claims
