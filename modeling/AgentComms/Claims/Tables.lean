import AgentComms.Claims.Holders

/-!
# What the claim tables mean

A publication projects the whole live table, an append projects the rows of its own
resources with the recorded expiry, and a rebuild carries its own dictionary. Each
is compared with a `ClaimTable`: `record` is the effect of one recorded transition,
`Admits` says when it can be projected, and `Shows` reads the stored tables.
`of_publish` says what a publication checked and what it left.
-/

namespace AgentComms.Claims

open Library Registry

/-- The last claim sequence, the holder of each resource and the sequence that
consumed each operation. -/
structure ClaimTable where
  lastSeq : Nat
  owner : String → Option ClaimOwner
  used : String → Option Nat

namespace ClaimTable

variable {table : ClaimTable} {transition : ClaimTransition} {previous : ClaimProjection}

def empty : ClaimTable := ⟨0, fun _ => none, fun _ => none⟩

def record (table : ClaimTable) (transition : ClaimTransition) : ClaimTable where
  lastSeq := transition.seq
  owner resource :=
    if resource ∈ transition.resources then (transition.claimed resource).toOption
    else if resource ∈ transition.expired then none else table.owner resource
  used operationId :=
    if operationId ∈ transition.operationIds then some transition.seq else table.used operationId

/-- Every holder is filed under its resource and no later than the last claim. -/
def Filed (table : ClaimTable) : Prop :=
  ∀ resource holder, table.owner resource = some holder →
    holder.resource = resource ∧ holder.seq ≤ table.lastSeq

/-- The transition can be projected from this table and consumes new operations. -/
structure Admits (table : ClaimTable) (transition : ClaimTransition) : Prop where
  follows : transition.Follows table.lastSeq table.owner
  unused : ∀ operationId ∈ transition.operationIds, table.used operationId = none

def AdmitsAll : ClaimTable → List ClaimTransition → Prop
  | _, [] => True
  | table, transition :: rest =>
    table.Admits transition ∧ (table.record transition).AdmitsAll rest

theorem admitsAll_append {first rest : List ClaimTransition} :
    table.AdmitsAll (first ++ rest) ↔
      table.AdmitsAll first ∧ (first.foldl record table).AdmitsAll rest := by
  induction first generalizing table with
  | nil => simp [AdmitsAll]
  | cons transition first ih =>
    rw [List.cons_append, AdmitsAll, AdmitsAll, ih, List.foldl_cons, and_assoc]

theorem filed_empty : empty.Filed := nofun

theorem Filed.record (hfiled : table.Filed) (hadmits : table.Admits transition) :
    (table.record transition).Filed := by
  intro resource holder howner
  simp only [ClaimTable.record] at howner ⊢
  split at howner
  · obtain ⟨hresource, hseq⟩ := ClaimTransition.of_claimed (toOption_eq_some.mp howner)
    exact ⟨hresource, hseq.le⟩
  · split at howner
    · cases howner
    · obtain ⟨hresource, hseq⟩ := hfiled resource holder howner
      exact ⟨hresource, hseq.trans hadmits.follows.later.le⟩

theorem Filed.foldl {transitions : List ClaimTransition} (hfiled : table.Filed)
    (hadmits : table.AdmitsAll transitions) : (transitions.foldl ClaimTable.record table).Filed := by
  induction transitions generalizing table with
  | nil => exact hfiled
  | cons transition rest ih => exact ih (hfiled.record hadmits.1) hadmits.2

end ClaimTable

/-- From the rows of its own resources, an admitted transition is projected to the rows
that the table has for them afterwards. -/
theorem ClaimTable.Admits.projectFrom_ok {table : ClaimTable} {transition : ClaimTransition}
    (hadmits : table.Admits transition) {isUsed : String → Bool}
    (hunused : ∀ operationId, table.used operationId = none → isUsed operationId = false)
    {previous : ClaimProjection} (hseq : previous.lastSeq = table.lastSeq)
    (hrows : ∀ resource, previous.claims.get? resource =
      if resource ∈ transition.resources then table.owner resource else none) :
    ∃ projected, transition.projectFrom isUsed (.ok previous) = .ok projected ∧
      projected.lastSeq = transition.seq ∧ ∀ resource, projected.claims.get? resource =
        if resource ∈ transition.resources then (table.record transition).owner resource
        else none := by
  have hfollows : transition.Follows previous.lastSeq previous.claims.get? := by
    refine ⟨hseq ▸ hadmits.follows.later, fun releases hchange release hrelease => ?_⟩
    have hnamed : release.resource ∈ transition.resources := by
      rw [ClaimTransition.resources, hchange]
      exact List.mem_map_of_mem hrelease
    rw [hrows, if_pos hnamed]
    exact hadmits.follows.released releases hchange release hrelease
  obtain ⟨projected, hproject⟩ := ClaimTransition.project_ok hfollows
  obtain ⟨-, hlast, hclaims⟩ := ClaimTransition.project_eq_ok.mp hproject
  refine ⟨projected, ?_, hlast, fun resource => ?_⟩
  · have hnew : transition.requireNewOperation isUsed = .ok () :=
      forM_eq_ok.mpr fun operationId hmem => require_eq_ok.mpr
        (hunused operationId (hadmits.unused operationId hmem))
    have hinner : (do
        transition.requireNewOperation isUsed
        transition.project (← .ok previous)) = .ok projected :=
      bind_eq_ok.mpr ⟨(), hnew, hproject⟩
    rw [ClaimTransition.projectFrom, hinner]
  · rw [hclaims, ClaimTransition.get?_projected, ClaimTable.record, hrows]
    by_cases hmem : resource ∈ transition.resources <;> simp [hmem]

namespace ClaimBus

variable {bus after : ClaimBus} {table : ClaimTable} {transition prepared : ClaimTransition}
  {through : Nat} {cut : RegistryCut} {more : List (Option ClaimTransition)}

/-! ### The stored tables -/

/-- The stored tables, read with the log up to a sequence, show this table. -/
structure Shows (bus : ClaimBus) (through : Nat) (table : ClaimTable) : Prop where
  lastSeq : bus.lastClaim through = table.lastSeq
  held : ∀ resource, bus.held.get? resource = (table.owner resource).map ClaimOwner.seq
  logged : ∀ resource holder, table.owner resource = some holder → ∃ transition,
    bus.transitionAt holder.seq = some transition ∧ transition.claimed resource = .ok holder
  operations : ∀ operationId, bus.operations.get? operationId = table.used operationId

theorem Shows.ownerFor (hshows : bus.Shows through table) (resource : String) :
    bus.ownerFor resource = .ok (table.owner resource) := by
  rw [ClaimBus.ownerFor, hshows.held]
  cases howner : table.owner resource with
  | none => rfl
  | some holder =>
    obtain ⟨transition, hat, hclaimed⟩ := hshows.logged resource holder howner
    simp [hat, hclaimed, bind, Except.bind, pure, Except.pure]

theorem projectRows_ok (hshows : bus.Shows through table) (hfiled : table.Filed)
    {current : Dict String Nat} (hcurrent : ∀ resource claimSeq,
      current.get? resource = some claimSeq → bus.held.get? resource = some claimSeq) :
    ∃ previous, bus.projectRows current through = .ok previous ∧
      previous.lastSeq = table.lastSeq ∧ ∀ resource, previous.claims.get? resource =
        (current.get? resource).bind fun _ => table.owner resource := by
  have hrow : ∀ resource claimSeq, current.get? resource = some claimSeq → ∃ holder,
      table.owner resource = some holder ∧ (do
        let transition ← orRefuse (bus.transitionAt claimSeq) (ClaimError.keyError claimSeq)
        transition.claimed resource) = .ok holder := by
    intro resource claimSeq hget
    have hheld := (hshows.held resource).symm.trans (hcurrent resource claimSeq hget)
    obtain ⟨holder, howner, rfl⟩ := Option.map_eq_some_iff.mp hheld
    obtain ⟨transition, hat, hclaimed⟩ := hshows.logged resource holder howner
    exact ⟨holder, howner, bind_eq_ok.mpr ⟨transition, orRefuse_eq_ok.mpr hat, hclaimed⟩⟩
  obtain ⟨claims, htraverse⟩ := Dict.traverse_ok fun resource claimSeq hget =>
    (hrow resource claimSeq hget).imp fun _ hholder => hholder.2
  have hclaims : ∀ resource, claims.get? resource =
      (current.get? resource).bind fun _ => table.owner resource := by
    intro resource
    obtain ⟨hstored, habsent⟩ := Dict.get?_of_traverse htraverse resource
    cases hget : current.get? resource with
    | none => rw [habsent hget, Option.bind_none]
    | some claimSeq =>
      obtain ⟨holder, hread, hclaim⟩ := hstored claimSeq hget
      obtain ⟨owner, howner, hsame⟩ := hrow resource claimSeq hget
      rw [hsame] at hread
      cases hread
      rw [hclaim, Option.bind_some, howner]
  have hbuilt : ∀ entry ∈ claims.entries, entry.2.resource = entry.1 ∧
      entry.2.seq ≤ table.lastSeq := by
    intro entry hentry
    have hget := Dict.mem_entries.mp hentry
    rw [hclaims] at hget
    obtain ⟨_, -, howner⟩ := Option.bind_eq_some_iff.mp hget
    exact hfiled _ _ howner
  refine ⟨⟨table.lastSeq, claims, hbuilt⟩, bind_eq_ok.mpr ⟨claims, htraverse, ?_⟩, rfl, hclaims⟩
  exact ClaimProjection.build_eq_ok.mpr ⟨hshows.lastSeq.symm, rfl⟩

theorem allClaims_ok (hshows : bus.Shows bus.lastSeq table) (hfiled : table.Filed) :
    ∃ previous, bus.allClaims = .ok previous ∧ previous.lastSeq = table.lastSeq ∧
      previous.claims.get? = table.owner := by
  obtain ⟨previous, hok, hseq, hclaims⟩ := projectRows_ok hshows hfiled fun _ _ hget => hget
  refine ⟨previous, hok, hseq, funext fun resource => (hclaims resource).trans ?_⟩
  rw [hshows.held]
  cases table.owner resource <;> rfl

theorem claimsFor_ok (hshows : bus.Shows through table) (hfiled : table.Filed)
    (resources : List String) :
    ∃ previous, bus.claimsFor resources through = .ok previous ∧
      previous.lastSeq = table.lastSeq ∧ ∀ resource, previous.claims.get? resource =
        if resource ∈ resources then table.owner resource else none := by
  have hget := bus.held.get?_filter_key (· ∈ resources)
  obtain ⟨previous, hok, hseq, hclaims⟩ := projectRows_ok hshows hfiled
    fun resource claimSeq hrow => by
      rw [hget] at hrow
      split at hrow
      · exact hrow
      · cases hrow
  refine ⟨previous, hok, hseq, fun resource => (hclaims resource).trans ?_⟩
  rw [hget, hshows.held]
  by_cases hmem : resource ∈ resources <;> cases table.owner resource <;> simp [hmem]

theorem lastClaim_of_transitionAt {seq : Nat} (hat : bus.transitionAt seq = some transition) :
    bus.lastClaim seq = seq := by
  cases seq with
  | zero => cases hat
  | succ => simp [lastClaim, hat]

/-- The rows of distinct holders are inserted where no row of theirs is left. -/
theorem insertHolders {claims : Dict String ClaimOwner} {rows : Dict String Nat}
    (hresource : ∀ resource holder, claims.get? resource = some holder → holder.resource = resource)
    (hfresh : ∀ resource ∈ claims, rows.get? resource = none) :
    ∃ held, claims.values.foldlM (fun held holder => held.insertNew holder.resource holder.seq
        (.relationViolation "UNIQUE constraint failed" : ClaimError)) rows = .ok held ∧
      ∀ resource, held.get? resource =
        ((claims.get? resource).map ClaimOwner.seq).or (rows.get? resource) := by
  have hdistinct : (claims.values.map ClaimOwner.resource).Nodup :=
    Dict.nodup_map_values.mpr fun resource other holder holder' hget hget' hsame => by
      rw [← hresource resource holder hget, ← hresource other holder' hget', hsame]
  have hnew : ∀ holder ∈ claims.values, holder.resource ∉ rows := by
    intro holder hmem
    obtain ⟨resource, hget⟩ := Dict.mem_values.mp hmem
    rw [hresource resource holder hget, ← Dict.get?_eq_none_iff]
    exact hfresh resource (Dict.mem_of_get? hget)
  obtain ⟨held, hheld, hstored, hothers⟩ := Dict.foldlM_insertNew_ok claims.values hdistinct hnew
  refine ⟨held, hheld, fun resource => ?_⟩
  cases hget : claims.get? resource with
  | some holder =>
    rw [← hresource resource holder hget, hstored holder (Dict.mem_values.mpr ⟨_, hget⟩)]
    rfl
  | none =>
    rw [hothers resource]
    · rfl
    · rw [List.mem_map]
      rintro ⟨holder, hmem, rfl⟩
      obtain ⟨other, hother⟩ := Dict.mem_values.mp hmem
      rw [hresource other holder hother, hother] at hget
      cases hget

/-- `StoredHolders.project`: the two tables follow a logged transition. -/
def projectStored (bus : ClaimBus) (transition : ClaimTransition) : Checked ClaimBus := do
  let projected ← bus.projectHeld transition
  bus.applyHeld transition projected

/-- The stored tables follow an admitted transition, whatever the log holds after it. -/
theorem projectStored_ok (hshows : bus.Shows (transition.seq - 1) table) (hfiled : table.Filed)
    (hadmits : table.Admits transition)
    (hlogged : bus.transitionAt transition.seq = some transition) :
    ∃ after, bus.projectStored transition = .ok after ∧ after.records = bus.records ∧
      after.Shows transition.seq (table.record transition) := by
  obtain ⟨previous, hprevious, hseq, hrows⟩ := claimsFor_ok hshows hfiled transition.resources
  have hunused : ∀ operationId, table.used operationId = none →
      bus.operationUsed operationId = false := by
    intro operationId hnone
    rw [← hshows.operations, Dict.get?_eq_none_iff] at hnone
    exact decide_eq_false hnone
  obtain ⟨projected, hproject, -, hclaims⟩ := hadmits.projectFrom_ok hunused hseq hrows
  rw [← hprevious] at hproject
  have hdeleted := bus.held.get?_filter_key (· ∉ transition.resources ++ transition.expired)
  -- the projected rows are rows of the transition's own resources, which were deleted
  have hfresh : ∀ resource ∈ projected.claims, (bus.held.filter fun resource _ =>
      decide (resource ∉ transition.resources ++ transition.expired)).get? resource = none := by
    intro resource hmem
    obtain ⟨holder, hget⟩ := Dict.mem_iff.mp hmem
    rw [hclaims] at hget
    split at hget
    next hnamed => rw [hdeleted, if_neg (not_not.mpr (List.mem_append_left _ hnamed))]
    · cases hget
  obtain ⟨held, hheld, hholders⟩ := insertHolders
    (fun _ _ hget => (projected.wellFormed _ (Dict.mem_entries.mpr hget)).1) hfresh
  obtain ⟨operations, hoperations, hconsumed, hothers⟩ :=
    Dict.foldlM_insertNew_ok transition.operationIds
      ((List.map_id _).symm ▸ transition.operationIds_nodup) fun operationId hmem =>
        Dict.get?_eq_none_iff.mp ((hshows.operations operationId).trans
          (hadmits.unused operationId hmem))
  refine ⟨{ bus with held := held, operations := operations },
    bind_eq_ok.mpr ⟨projected, hproject, bind_eq_ok.mpr ⟨held, hheld,
      bind_eq_ok.mpr ⟨operations, hoperations, rfl⟩⟩⟩, rfl, lastClaim_of_transitionAt hlogged,
    fun resource => ?_, fun resource holder howner => ?_, fun operationId => ?_⟩
  · rw [hholders, hclaims, hdeleted, hshows.held]
    simp only [ClaimTable.record, List.mem_append]
    by_cases hnamed : resource ∈ transition.resources <;>
      by_cases hexpired : resource ∈ transition.expired <;> simp [hnamed, hexpired]
  · simp only [ClaimTable.record] at howner
    split at howner
    · have hclaimed := toOption_eq_some.mp howner
      refine ⟨transition, ?_, hclaimed⟩
      rw [(ClaimTransition.of_claimed hclaimed).2]
      exact hlogged
    · split at howner
      · cases howner
      · exact hshows.logged resource holder howner
  · simp only [ClaimTable.record]
    split
    next hown => exact hconsumed operationId hown
    next hnot => exact (hothers operationId (by rwa [List.map_id'])).trans (hshows.operations _)

/-! ### Publications -/

theorem lastClaim_of_le {seq : Nat} (hrecords : after.records = bus.records ++ more)
    (hle : seq ≤ bus.lastSeq) : after.lastClaim seq = bus.lastClaim seq := by
  induction seq with
  | zero => rfl
  | succ seq ih =>
    rw [lastClaim, lastClaim, transitionAt_of_le hrecords hle, ih (Nat.le_of_succ_le hle)]

/-- Records behind the place where the tables stand do not change what they show. -/
theorem Shows.extend (hshows : bus.Shows bus.lastSeq table) :
    ({ bus with records := bus.records ++ more } : ClaimBus).Shows bus.lastSeq table where
  lastSeq := (lastClaim_of_le rfl le_rfl).trans hshows.lastSeq
  held := hshows.held
  operations := hshows.operations
  logged resource holder howner := by
    obtain ⟨transition, hat, hclaimed⟩ := hshows.logged resource holder howner
    exact ⟨transition, transitionAt_append hat rfl, hclaimed⟩

theorem Shows.skip (hshows : bus.Shows through table)
    (hnone : bus.transitionAt (through + 1) = none) : bus.Shows (through + 1) table where
  lastSeq := by
    rw [lastClaim, hnone]
    exact hshows.lastSeq
  held := hshows.held
  logged := hshows.logged
  operations := hshows.operations

theorem append_ok (hshows : bus.Shows bus.lastSeq table) (hfiled : table.Filed)
    (hadmits : table.Admits prepared) (hseq : prepared.seq = bus.nextSeq) :
    ∃ after, bus.append prepared = .ok after ∧ after.records = bus.records ++ [some prepared] ∧
      after.Shows after.lastSeq (table.record prepared) := by
  have hprior : prepared.seq - 1 = bus.lastSeq := by
    rw [hseq]
    rfl
  have hat : ({ bus with records := bus.records ++ [some prepared] } : ClaimBus).transitionAt
      prepared.seq = some prepared := by
    rw [hseq]
    exact transitionAt_nextSeq rfl
  obtain ⟨stored, hstored, hrecords, hshown⟩ :=
    projectStored_ok (hprior ▸ hshows.extend) hfiled hadmits hat
  have hlength : stored.lastSeq = prepared.seq := by
    rw [hseq, lastSeq, hrecords, List.length_append]
    rfl
  exact ⟨stored, hstored, hrecords, hlength ▸ hshown⟩

/-- What a prepared transition was checked for against a table. -/
structure Prepared (table : ClaimTable) (cut : RegistryCut) (transition prepared : ClaimTransition) :
    Prop where
  fields : prepared = { transition with expired := prepared.expired }
  admits : table.Admits prepared
  dead : ∀ resource ∈ prepared.expired, ∀ holder, table.owner resource = some holder →
    holder.liveIn cut = .ok false
  own : ∀ claims generation scope, transition.change = .acquisition claims generation scope →
    ∀ resource ∈ claims, ∀ holder, table.owner resource = some holder →
      holder.liveIn cut = .ok false ∨
        holder.owner = transition.owner ∧ holder.incarnation = transition.incarnation

/-- What a publication projects from the live table is what its recorded transition
leaves in the stored ones. -/
theorem of_prepareClaim (hshows : bus.Shows bus.lastSeq table) (hfiled : table.Filed)
    (hok : bus.prepareClaim transition cut = .ok prepared) :
    ∃ previous projected, bus.allClaims = .ok previous ∧
      transition.apply previous cut = .ok projected ∧ Prepared table cut transition prepared ∧
      projected.lastSeq = prepared.seq ∧
      ∀ resource, projected.claims.get? resource = (table.record prepared).owner resource := by
  simp only [prepareClaim, do_eq_ok] at hok
  obtain ⟨previous, hprevious, projected, happly, ⟨⟩, hnew, rfl⟩ := hok
  obtain ⟨_, hall, hlast, hclaims⟩ := allClaims_ok hshows hfiled
  rw [hprevious] at hall
  cases hall
  have happlied := happly
  simp only [ClaimTransition.apply, bind_eq_ok] at happlied
  obtain ⟨live, hlive, ⟨⟩, hholders, hproject⟩ := happlied
  obtain ⟨hliveSeq, hkept, hasked⟩ := ClaimProjection.of_liveIn hlive
  obtain ⟨hfollows, hprojectedSeq, hprojected⟩ := ClaimTransition.project_eq_ok.mp hproject
  rw [hclaims] at hkept hasked
  have hget : ∀ resource, projected.claims.get? resource =
      if resource ∈ transition.resources then (transition.claimed resource).toOption
      else live.claims.get? resource := by
    intro resource
    rw [hprojected]
    exact ClaimTransition.get?_projected { transition with expired := [] } _ resource
  have hexpired : ∀ resource, resource ∈ (previous.claims.keys.filter fun resource =>
      resource ∉ projected.claims ∧ resource ∉ transition.resources).insertionSort (· ≤ ·) ↔
        resource ∉ transition.resources ∧ live.claims.get? resource = none ∧
          table.owner resource ≠ none := by
    intro resource
    rw [List.mem_insertionSort, List.mem_filter, decide_eq_true_iff, Dict.mem_keys, Dict.mem_iff,
      ← Dict.get?_eq_none_iff, hget, hclaims, ← Option.ne_none_iff_exists']
    by_cases hnamed : resource ∈ transition.resources
    · simp [hnamed]
    · simp only [hnamed, if_false, not_false_eq_true, and_true, true_and]
      exact and_comm
  refine ⟨previous, projected, hprevious, happly, ⟨rfl, ⟨⟨?_, fun releases hchange release hmem => ?_⟩,
    fun operationId hmem => ?_⟩, fun resource hmem holder howner => ?_,
    fun claims generation scope hchange resource hmem holder howner => ?_⟩, hprojectedSeq,
    fun resource => ?_⟩
  · rw [← hlast, ← hliveSeq]
    exact hfollows.later
  · obtain ⟨-, current, hcurrent, hmatch⟩ := hfollows.released releases hchange release hmem
    refine ⟨fun hgone => ((hexpired _).mp hgone).1 ?_, current, ((hkept _ _).mp hcurrent).1, hmatch⟩
    rw [ClaimTransition.resources, show transition.change = _ from hchange]
    exact List.mem_map_of_mem hmem
  · have hunused := forM_eq_ok.mp hnew operationId hmem
    rw [require_eq_ok, operationUsed, decide_eq_false_iff_not, ← Dict.get?_eq_none_iff,
      hshows.operations] at hunused
    exact hunused
  · rcases hasked resource holder howner with hyes | hno
    · have hnone := ((hexpired resource).mp hmem).2.1
      rw [(hkept resource holder).mpr ⟨howner, hyes⟩] at hnone
      cases hnone
    · exact hno
  · rcases hasked resource holder howner with hyes | hno
    · rw [ClaimTransition.requireHolders, hchange] at hholders
      have hsame := forM_eq_ok.mp hholders resource hmem
      simp only [(hkept resource holder).mpr ⟨howner, hyes⟩, ClaimOwner.requireHolder,
        require_eq_ok] at hsame
      exact .inr hsame
    · exact .inl hno
  · rw [hget]
    show _ = if resource ∈ transition.resources then _ else
      if resource ∈ List.insertionSort _ _ then _ else _
    split
    · rfl
    next hnamed =>
      simp only [hexpired]
      cases hrow : live.claims.get? resource with
      | some holder => simp [((hkept resource holder).mp hrow).1]
      | none => cases table.owner resource <;> simp [hnamed]

end ClaimBus

end AgentComms.Claims
