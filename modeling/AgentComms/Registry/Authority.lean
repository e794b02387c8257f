import AgentComms.Registry.Edits
import AgentComms.Registry.Wire

/-!
# Withdrawn authority

An owner lease and an input claim are generations allocated for a name, held together
with the birth of the thread that has the name. A generation that an edit leaves
behind was there before or lies above the counter, and so does a generation held by a
birth; hence a birth that lost a generation never holds it again.
-/

namespace AgentComms.Registry

open Library

inductive Grant where
  | owner
  | claim
deriving DecidableEq, Repr

/-- `OwnerIdentity` and `ClaimedIdentity`. Incarnations are equal when their births
are, so the name is not compared. -/
structure GrantedIdentity where
  name : Name
  birth : Nat
  generation : Nat
deriving DecidableEq, Repr

def GrantedIdentity.same (identity other : GrantedIdentity) : Bool :=
  identity.birth = other.birth ∧ identity.generation = other.generation

namespace RegistryDocument

def counter (document : RegistryDocument) : Grant → GenerationCounter
  | .owner => document.owners
  | .claim => document.claims

/-- `RegistrySnapshot.owner_identity` and `claimed_identity`. -/
def identity (document : RegistryDocument) (grant : Grant) (name : Name) :
    Checked GrantedIdentity := do
  let canonical := document.canonicalName name
  let thread ← orRefuse (document.threads.get? canonical) (.keyError canonical)
  let generation ← orRefuse ((document.counter grant).generations.get? canonical)
    (.keyError canonical)
  pure ⟨thread.name, thread.birth, generation⟩

end RegistryDocument

/-- Everything the registry records about one thread. -/
structure RegistryEntry where
  thread : Thread
  status : ThreadStatus
  lastSeen : Time
  ownerGeneration : Nat
  claimedGeneration : Nat
  names : List Name

namespace RegistryEntry

def owns (owner : GrantedIdentity) (thread : Thread) (generation : Nat)
    (process : ProcessState) : Bool :=
  owner.birth = thread.birth ∧ owner.generation = generation ∧ thread.processIdentity = process

/-- Only an active presence owns its entry. -/
def ownedBy (entry : RegistryEntry) (owner : GrantedIdentity) (process : ProcessState) : Bool :=
  entry.status.active && (owner.name ∈ entry.names &&
    owns owner entry.thread entry.ownerGeneration process)

end RegistryEntry

namespace RegistryDocument

def entry (env : Environment) (document : RegistryDocument) (name : Name) :
    Checked RegistryEntry := do
  let thread ← document.requireThread name
  let status ← document.status env thread.name
  let seen ← orRefuse (document.lastSeen.get? thread.name) (.keyError thread.name)
  let canonical := document.canonicalName thread.name
  let owner ← orRefuse (document.owners.generations.get? canonical) (.keyError canonical)
  let claim ← orRefuse (document.claims.generations.get? canonical) (.keyError canonical)
  pure ⟨thread, status, seen, owner, claim, document.namesFor thread.name⟩

def Grants (document : RegistryDocument) (grant : Grant) (identity : GrantedIdentity) : Prop :=
  ∃ name found, document.identity grant name = .ok found ∧ found.same identity

/-! ### Generations held by births -/

variable {given : List Thread} {grant : Grant} {origin document edited : RegistryDocument}

def Held (document : RegistryDocument) (grant : Grant) (birth generation : Nat) : Prop :=
  ∃ name, (document.threads.get? name).map Thread.birth = some birth ∧
    (document.counter grant).generations.get? name = some generation

theorem held_of_grants {identity : GrantedIdentity} (hgrants : document.Grants grant identity) :
    document.Held grant identity.birth identity.generation := by
  obtain ⟨name, found, hfound, hsame⟩ := hgrants
  simp only [RegistryDocument.identity, do_eq_ok] at hfound
  obtain ⟨thread, hthread, generation, hgeneration, rfl⟩ := hfound
  obtain ⟨hbirth, hvalue⟩ := of_decide_eq_true hsame
  refine ⟨document.canonicalName name, ?_, ?_⟩
  · rw [hthread, Option.map_some]
    exact congrArg some hbirth
  · rw [hgeneration]
    exact congrArg some hvalue

theorem grants_of_held (hwf : document.WellFormed) {identity : GrantedIdentity}
    (hheld : document.Held grant identity.birth identity.generation) :
    document.Grants grant identity := by
  obtain ⟨name, hbirth, hvalue⟩ := hheld
  obtain ⟨thread, hthread, hsame⟩ := Option.map_eq_some_iff.mp hbirth
  have hcanonical := hwf.canonicalName_of_mem (Dict.mem_of_get? hthread)
  refine ⟨name, ⟨thread.name, thread.birth, identity.generation⟩, ?_, ?_⟩
  · simp only [RegistryDocument.identity, do_eq_ok, hcanonical]
    exact ⟨thread, hthread, identity.generation, hvalue, rfl⟩
  · exact decide_eq_true ⟨hsame, rfl⟩

theorem Held.le_counter {birth generation : Nat} (hheld : document.Held grant birth generation) :
    generation ≤ (document.counter grant).counter := by
  obtain ⟨name, -, hvalue⟩ := hheld
  exact ((document.counter grant).get?_bounded hvalue).2

/-- A birth holds one generation. -/
theorem Held.unique (hwf : document.WellFormed) {birth generation generation' : Nat}
    (hheld : document.Held grant birth generation)
    (hheld' : document.Held grant birth generation') : generation = generation' := by
  obtain ⟨name, hbirth, hvalue⟩ := hheld
  obtain ⟨name', hbirth', hvalue'⟩ := hheld'
  obtain ⟨thread, hthread, hsame⟩ := Option.map_eq_some_iff.mp hbirth
  obtain ⟨thread', hthread', hsame'⟩ := Option.map_eq_some_iff.mp hbirth'
  have hname := hwf.distinctBirths _ _ _ _ hthread hthread' (hsame.trans hsame'.symm)
  rw [hname, hvalue'] at hvalue
  exact (Option.some.inj hvalue).symm

/-! ### What an edit leaves -/

/-- Generations are left where they were or allocated above the counter. -/
structure Succeeds (grant : Grant) (document edited : RegistryDocument) : Prop where
  counter_le : (document.counter grant).counter ≤ (edited.counter grant).counter
  values : ∀ name generation, (edited.counter grant).generations.get? name = some generation →
    (∃ former, (document.counter grant).generations.get? former = some generation) ∨
      (document.counter grant).counter < generation
  held : ∀ birth generation, edited.Held grant birth generation →
    document.Held grant birth generation ∨ (document.counter grant).counter < generation

theorem Succeeds.refl (grant : Grant) (document : RegistryDocument) :
    Succeeds grant document document :=
  ⟨le_rfl, fun name _ hvalue => .inl ⟨name, hvalue⟩, fun _ _ hheld => .inl hheld⟩

theorem Succeeds.trans {middle : RegistryDocument} (hfirst : Succeeds grant document middle)
    (hrest : Succeeds grant middle edited) : Succeeds grant document edited where
  counter_le := hfirst.counter_le.trans hrest.counter_le
  values := by
    intro name generation hvalue
    rcases hrest.values name generation hvalue with ⟨former, hformer⟩ | hfresh
    · exact hfirst.values former generation hformer
    · exact .inr (hfirst.counter_le.trans_lt hfresh)
  held := by
    intro birth generation hheld
    rcases hrest.held birth generation hheld with hmiddle | hfresh
    · exact hfirst.held birth generation hmiddle
    · exact .inr (hfirst.counter_le.trans_lt hfresh)

/-- An edit that keeps names: each name has its birth and generation from before, or a
fresh generation. -/
theorem Succeeds.of_names (hle : (document.counter grant).counter ≤ (edited.counter grant).counter)
    (hname : ∀ name generation,
      (edited.counter grant).generations.get? name = some generation →
        (document.counter grant).generations.get? name = some generation ∧
          (∀ birth, (edited.threads.get? name).map Thread.birth = some birth →
            (document.threads.get? name).map Thread.birth = some birth) ∨
        (document.counter grant).counter < generation) :
    Succeeds grant document edited where
  counter_le := hle
  values := fun name generation hvalue =>
    (hname name generation hvalue).imp_left fun hkept => ⟨name, hkept.1⟩
  held := by
    rintro birth generation ⟨name, hbirth, hvalue⟩
    exact (hname name generation hvalue).imp_left fun hkept =>
      ⟨name, hkept.2 birth hbirth, hkept.1⟩

theorem Succeeds.of_advance {name : Name}
    (hcounter : edited.counter grant = (document.counter grant).advance name)
    (hbirths : ∀ other birth, other ≠ name →
      (edited.threads.get? other).map Thread.birth = some birth →
        (document.threads.get? other).map Thread.birth = some birth) :
    Succeeds grant document edited := by
  refine .of_names ?_ fun other generation hvalue => ?_
  · rw [hcounter]
    exact Nat.le_succ _
  · rw [hcounter] at hvalue
    rcases Dict.get?_set_eq_some.mp hvalue with ⟨-, rfl⟩ | ⟨hother, hkept⟩
    · exact .inr (Nat.lt_succ_self _)
    · exact .inl ⟨hkept, fun birth => hbirths other birth hother⟩

theorem Succeeds.of_same (hcounter : edited.counter grant = document.counter grant)
    (hbirths : ∀ name birth, (edited.threads.get? name).map Thread.birth = some birth →
      (document.threads.get? name).map Thread.birth = some birth) :
    Succeeds grant document edited := by
  refine .of_names (le_of_eq (congrArg _ hcounter.symm)) fun name generation hvalue => ?_
  rw [hcounter] at hvalue
  exact .inl ⟨hvalue, hbirths name⟩

theorem births_of_setThread {current written : Thread}
    (hget : document.threads.get? current.name = some current)
    (hsame : written.SameIdentity current) (name : Name) :
    ((document.setThread written).threads.get? name).map Thread.birth =
      (document.threads.get? name).map Thread.birth := by
  refine (keeps_setThread document written ?_).births name
  rw [hsame.1, hget, Option.map_some, hsame.2]

theorem succeeds_of_rename {canonical newName : Name}
    (hrenames : Renames canonical newName document edited)
    (hcounter : (document.counter grant).rename canonical newName = .ok (edited.counter grant)) :
    Succeeds grant document edited := by
  have hvalue : ∀ name generation, (edited.counter grant).generations.get? name = some generation →
        (document.counter grant).generations.get? (if name = newName then canonical else name) =
          some generation := by
    intro name generation hget
    unfold GenerationCounter.rename at hcounter
    split at hcounter
    · cases hcounter
    next moved hmoved =>
      rw [← Except.ok.inj hcounter, Dict.get?_set_eq_some, Dict.get?_erase_eq_some] at hget
      rcases hget with ⟨hnew, rfl⟩ | ⟨hnew, -, hget⟩
      · rw [if_pos hnew, hmoved]
      · rw [if_neg hnew, hget]
  refine ⟨le_of_eq ?_, fun name generation hget => .inl ⟨_, hvalue name generation hget⟩, ?_⟩
  · unfold GenerationCounter.rename at hcounter
    split at hcounter
    · cases hcounter
    · rw [← Except.ok.inj hcounter]
  · rintro birth generation ⟨name, hbirth, hget⟩
    obtain ⟨thread, hthread, rfl⟩ := Option.map_eq_some_iff.mp hbirth
    obtain ⟨before, hbefore, hsame⟩ := hrenames.birth_before hthread
    refine .inl ⟨_, ?_, hvalue name generation hget⟩
    rw [hbefore, Option.map_some, hsame]

theorem Edit.succeeds (hedit : Edit given origin document edited) (grant : Grant) :
    Succeeds grant document edited := by
  cases hedit with
  | row hget hrewrites =>
    refine .of_same (by cases grant <;> rfl) fun name birth hbirth => ?_
    rwa [births_of_setThread hget hrewrites.identity] at hbirth
  | status | seen | aliases => exact .of_same (by cases grant <;> rfl) fun _ _ hbirth => hbirth
  | claim =>
    cases grant with
    | owner => exact .of_same rfl fun _ _ hbirth => hbirth
    | claim => exact .of_advance rfl fun _ _ _ hbirth => hbirth
  | owner =>
    cases grant with
    | owner => exact .of_advance rfl fun _ _ _ hbirth => hbirth
    | claim => exact .of_same rfl fun _ _ hbirth => hbirth
  | @declare thread hfresh hdeclared status seen =>
    -- both counters advance under the only name whose birth is new
    have hbirths : ∀ other birth, other ≠ thread.name →
        ((document.declare thread status seen).threads.get? other).map Thread.birth =
          some birth → (document.threads.get? other).map Thread.birth = some birth := by
      intro other birth hne hbirth
      rwa [get?_declare, if_neg hne] at hbirth
    cases grant with
    | owner | claim => exact .of_advance rfl hbirths
  | rename hrenames hturns hnew howners hclaims =>
    cases grant with
    | owner => exact succeeds_of_rename hrenames howners
    | claim => exact succeeds_of_rename hrenames hclaims
  | remove =>
    refine .of_same (by cases grant <;> rfl) fun other birth hbirth => ?_
    rw [Dict.get?_erase] at hbirth
    split at hbirth
    · cases hbirth
    · exact hbirth

theorem Leases.succeeds {env : Environment} {current leased : Thread}
    (hleases : Leases document env current leased edited) (grant : Grant) :
    Succeeds grant document edited := by
  rw [hleases.eq]
  refine .of_same (by cases grant <;> rfl) fun name birth hbirth => ?_
  rwa [← births_of_setThread hleases.row hleases.identity]

theorem Edits.succeeds (hedits : Edits given origin document edited) (grant : Grant) :
    Succeeds grant document edited := by
  induction hedits with
  | refl => exact .refl grant document
  | tail _ hedit ih => exact ih.trans (hedit.succeeds grant)

end RegistryDocument

/-! ### Distinct generations -/

def GenerationCounter.Distinct (counter : GenerationCounter) : Prop :=
  ∀ name other generation, counter.generations.get? name = some generation →
    counter.generations.get? other = some generation → name = other

namespace GenerationCounter

variable {counter renamed : GenerationCounter}

theorem Distinct.advance (hdistinct : counter.Distinct) (name : Name) :
    (counter.advance name).Distinct := by
  intro first second generation hfirst hsecond
  -- the new generation is above every old one
  have hnew : ∀ other, counter.generations.get? other ≠ some (counter.counter + 1) :=
    fun other hget => absurd (counter.get?_bounded hget).2 (Nat.not_succ_le_self _)
  rcases Dict.get?_set_eq_some.mp hfirst with ⟨heq, rfl⟩ | ⟨-, hfirst⟩ <;>
    rcases Dict.get?_set_eq_some.mp hsecond with ⟨heq', hsame⟩ | ⟨-, hsecond⟩
  · rw [heq, heq']
  · exact absurd hsecond (hnew _)
  · exact absurd (hsame ▸ hfirst) (hnew _)
  · exact hdistinct _ _ _ hfirst hsecond

theorem Distinct.rename {old new : Name} (hdistinct : counter.Distinct)
    (hok : counter.rename old new = .ok renamed) : renamed.Distinct := by
  unfold GenerationCounter.rename at hok
  split at hok
  · cases hok
  next moved hmoved =>
    intro first second generation hfirst hsecond
    rw [← Except.ok.inj hok, Dict.get?_set_eq_some, Dict.get?_erase_eq_some]
      at hfirst hsecond
    -- the moved generation is found under its new name only
    have hother : ∀ other, other ≠ old → counter.generations.get? other ≠ some moved :=
      fun other hne hget => hne (hdistinct _ _ _ hget hmoved)
    rcases hfirst with ⟨heq, rfl⟩ | ⟨-, hne, hfirst⟩ <;>
      rcases hsecond with ⟨heq', hsame⟩ | ⟨-, hne', hsecond⟩
    · rw [heq, heq']
    · exact absurd hsecond (hother _ hne')
    · exact absurd (hsame ▸ hfirst) (hother _ hne)
    · exact hdistinct _ _ _ hfirst hsecond

end GenerationCounter

namespace RegistryDocument

variable {given : List Thread} {grant : Grant} {origin document edited : RegistryDocument}

theorem Edit.distinct (hedit : Edit given origin document edited)
    (hdistinct : ∀ grant, (document.counter grant).Distinct) (grant : Grant) :
    (edited.counter grant).Distinct := by
  have hold := hdistinct grant
  cases hedit with
  | row | status | seen | aliases | remove => cases grant <;> exact hold
  | claim name =>
    cases grant with
    | owner => exact hold
    | claim => exact hold.advance name
  | owner name =>
    cases grant with
    | owner => exact hold.advance name
    | claim => exact hold
  | @declare thread hfresh hdeclared status seen =>
    cases grant with
    | owner | claim => exact hold.advance thread.name
  | rename hrenames hturns hnew howners hclaims =>
    cases grant with
    | owner => exact hold.rename howners
    | claim => exact hold.rename hclaims

theorem Edits.distinct (hedits : Edits given origin document edited)
    (hdistinct : ∀ grant, (document.counter grant).Distinct) (grant : Grant) :
    (edited.counter grant).Distinct := by
  induction hedits generalizing grant with
  | refl => exact hdistinct grant
  | tail _ hedit ih => exact hedit.distinct ih grant

theorem perform_succeeds {op : Environment × RegistryOp} (hwf : document.WellFormed)
    (hok : RegistryOp.perform op document = .ok edited) (grant : Grant) :
    Succeeds grant document edited := by
  rcases RegistryOp.perform_cases hwf hok with hedits | ⟨current, leased, hleases⟩
  · exact Edits.succeeds hedits grant
  · exact hleases.succeeds grant

/-! ### Runs -/

theorem run_succeeds (grant : Grant) (ops : List (Environment × RegistryOp))
    (hwf : document.WellFormed) :
    Succeeds grant document (run RegistryOp.perform ops document) := by
  refine (run_invariant (fun reached => reached.WellFormed ∧ Succeeds grant document reached)
    (fun op before after hbefore hok => ⟨?_, ?_⟩) ops ⟨hwf, .refl grant document⟩).2
  · exact (RegistryOp.perform_evolves hbefore.1 hok).wellFormed
  · exact hbefore.2.trans (perform_succeeds hbefore.1 hok grant)

theorem distinct_empty (grant : Grant) : (empty.counter grant).Distinct := by
  intro name other generation hget
  cases grant <;> cases hget

theorem run_distinct (ops : List (Environment × RegistryOp)) (hwf : document.WellFormed)
    (hdistinct : ∀ grant, (document.counter grant).Distinct) (grant : Grant) :
    ((run RegistryOp.perform ops document).counter grant).Distinct := by
  refine (run_invariant (fun reached : RegistryDocument =>
      reached.WellFormed ∧ ∀ grant, (reached.counter grant).Distinct)
    (fun op before after hbefore hok => ⟨?_, ?_⟩) ops ⟨hwf, hdistinct⟩).2 grant
  · exact (RegistryOp.perform_evolves hbefore.1 hok).wellFormed
  · intro grant
    rcases RegistryOp.perform_cases hbefore.1 hok with hedits | ⟨current, leased, hleases⟩
    · exact Edits.distinct hedits hbefore.2 grant
    · rw [hleases.eq]
      cases grant with
      | owner => exact hbefore.2 .owner
      | claim => exact hbefore.2 .claim

/-- What a grant did between three documents of one run: the generations of a birth do
not decrease, and one it no longer has does not come back. -/
structure Fenced (grant : Grant) (earlier later final : RegistryDocument) : Prop where
  monotone : ∀ identity identity', earlier.Grants grant identity → later.Grants grant identity' →
    identity.birth = identity'.birth → identity.generation ≤ identity'.generation
  never : ∀ identity, earlier.Grants grant identity → ¬ later.Grants grant identity →
    ¬ final.Grants grant identity

theorem fenced_of_succeeds {earlier later final : RegistryDocument}
    (hearlier : earlier.WellFormed) (hlater : later.WellFormed)
    (hfirst : Succeeds grant earlier later) (hrest : Succeeds grant later final) :
    Fenced grant earlier later final where
  monotone := by
    intro identity identity' hgrants hgrants' hbirth
    have hheld := held_of_grants hgrants
    rcases hfirst.held _ _ (held_of_grants hgrants') with hsame | hfresh
    · rw [← hbirth] at hsame
      exact le_of_eq (hheld.unique hearlier hsame)
    · exact hheld.le_counter.trans hfresh.le
  never := by
    intro identity hgrants hlost hfinal
    rcases hrest.held _ _ (held_of_grants hfinal) with hback | hfresh
    · exact hlost (grants_of_held hlater hback)
    · have hle := (held_of_grants hgrants).le_counter.trans hfirst.counter_le
      exact absurd hfresh (not_lt.mpr hle)

theorem grants_of_ownedBy {env : Environment} {name : Name} {found : RegistryEntry}
    {identity : GrantedIdentity} {process : ProcessState} (hwf : document.WellFormed)
    (hentry : document.entry env name = .ok found)
    (howned : found.ownedBy identity process = true) : document.Grants .owner identity := by
  simp only [entry, do_eq_ok] at hentry
  obtain ⟨thread, hthread, _, _, _, _, generation, hgeneration, _, _, hfound⟩ := hentry
  simp only [← hfound, RegistryEntry.ownedBy, RegistryEntry.owns, Bool.and_eq_true,
    decide_eq_true_eq] at howned
  obtain ⟨-, -, hbirth, hvalue, -⟩ := howned
  have hget := hwf.mem_of_requireThread hthread
  rw [hwf.canonicalName_of_mem (Dict.mem_of_get? hget)] at hgeneration
  refine grants_of_held hwf ⟨thread.name, ?_, ?_⟩
  · rw [hget, Option.map_some, hbirth]
  · rw [hvalue]
    exact hgeneration

end RegistryDocument

def reached (ops : List (Environment × RegistryOp)) : RegistryDocument :=
  run RegistryOp.perform ops RegistryDocument.empty

theorem reached_wellFormed (ops : List (Environment × RegistryOp)) : (reached ops).WellFormed :=
  run_invariant RegistryDocument.WellFormed
    (fun _ _ _ hbefore hok => (RegistryOp.perform_evolves hbefore hok).wellFormed) ops
    RegistryDocument.wellFormed_empty

theorem reached_succeeds (grant : Grant) (first rest : List (Environment × RegistryOp)) :
    RegistryDocument.Succeeds grant (reached first) (reached (first ++ rest)) := by
  rw [reached, reached, run_append]
  exact RegistryDocument.run_succeeds grant rest (reached_wellFormed first)

/-- **Withdrawn authority never comes back.** Along any run, the generations of a birth
do not decrease, an allocated generation was in no earlier document, no two names share
one, and an identity that is lost is granted and owned by nobody from then on. -/
theorem withdrawn_authority_never_returns (first middle last : List (Environment × RegistryOp)) :
    (∀ grant, RegistryDocument.Fenced grant (reached first) (reached (first ++ middle))
      (reached (first ++ middle ++ last))) ∧
    (∀ grant op edited name generation,
      RegistryOp.perform op (reached (first ++ middle)) = .ok edited →
      (edited.counter grant).generations.get? name = some generation →
        (∃ former, ((reached (first ++ middle)).counter grant).generations.get? former =
          some generation) ∨
        ∀ former, ((reached first).counter grant).generations.get? former ≠ some generation) ∧
    (∀ grant, ((reached (first ++ middle)).counter grant).Distinct) ∧
    ∀ identity, (reached first).Grants .owner identity →
      ¬ (reached (first ++ middle)).Grants .owner identity →
      ∀ env name entry process, (reached (first ++ middle ++ last)).entry env name = .ok entry →
        entry.ownedBy identity process = false := by
  have hmiddle := fun grant => reached_succeeds grant first middle
  have hlast := fun grant => reached_succeeds grant (first ++ middle) last
  have hwf := reached_wellFormed (first ++ middle)
  have hfenced : ∀ grant, RegistryDocument.Fenced grant (reached first)
      (reached (first ++ middle)) (reached (first ++ middle ++ last)) := fun grant =>
    RegistryDocument.fenced_of_succeeds (reached_wellFormed first) hwf
      (hmiddle grant) (hlast grant)
  refine ⟨hfenced, ?_, ?_, ?_⟩
  · intro grant op edited name generation hok hvalue
    have hstep := RegistryDocument.perform_succeeds hwf hok grant
    refine (hstep.values name generation hvalue).imp_right fun hfresh former hget => ?_
    -- every earlier generation is at most the counter the allocation started from
    have hle := (((reached first).counter grant).get?_bounded hget).2
    exact absurd hfresh (not_lt.mpr (hle.trans (hmiddle grant).counter_le))
  · exact RegistryDocument.run_distinct (first ++ middle) RegistryDocument.wellFormed_empty
      RegistryDocument.distinct_empty
  · intro identity hgrants hlost env name entry process hentry
    by_contra howned
    rw [Bool.not_eq_false] at howned
    exact (hfenced .owner).never identity hgrants hlost
      (RegistryDocument.grants_of_ownedBy (reached_wellFormed _) hentry howned)

end AgentComms.Registry
