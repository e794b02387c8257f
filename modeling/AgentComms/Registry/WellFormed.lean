import AgentComms.Registry.Document

/-!
# What registry edits preserve

`WellFormed` is the coupling of the six maps that `RegistryDocument.from_wire`
and `RegistrySnapshot` demand. A document *knows* a name when it declares it,
keeps it as an alias, or holds a claim generation for it. `Evolves lost` says
both things about one edit: the result is well formed, and every name known
before is still known unless it is in `lost`.

Most operations only rewrite rows in place (`Keeps`). The four that change the
set of names are a first declaration, a rename, a removal and the restoration of
aliases; each has its own lemma, and every operation is composed of these.
-/

namespace AgentComms.Registry

open Library
open Thread (birth turnColumns make_eq_ok)
open GenerationCounter (mem_advance)
open Option (map_some map_eq_some_iff isSome_iff_exists isSome_map)
open Dict (mem_iff mem_of_get? mem_erase get?_set get?_erase_eq_some get?_eq_none_iff
  get?_set_eq_some mem_values)

namespace RegistryDocument

variable {lost : Name → Prop} {document edited : RegistryDocument}

structure WellFormed (document : RegistryDocument) : Prop where
  rowNames : ∀ name thread, document.threads.get? name = some thread → thread.name = name
  statusNames : ∀ name, name ∈ document.statuses ↔ name ∈ document.threads
  ownerNames : ∀ name, name ∈ document.threads → name ∈ document.owners.generations
  claimNames : ∀ name, name ∈ document.threads → name ∈ document.claims.generations
  aliasNames : ∀ former target, document.aliases.get? former = some target →
    target ∈ document.threads ∧ former ∉ document.threads
  distinctBirths : ∀ name other thread thread', document.threads.get? name = some thread →
    document.threads.get? other = some thread' → thread.birth = thread'.birth → name = other

/-- The name is declared, retained as an alias, or recorded by its generation. -/
def Known (document : RegistryDocument) (name : Name) : Prop :=
  name ∈ document.threads ∨ name ∈ document.aliases ∨ name ∈ document.claims.generations

/-- One edit ends well formed and forgets no known name but the lost ones. -/
structure Evolves (lost : Name → Prop) (document edited : RegistryDocument) : Prop where
  wellFormed : edited.WellFormed
  known : ∀ name, document.Known name → edited.Known name ∨ lost name

theorem wellFormed_empty : empty.WellFormed := by
  constructor <;> simp [empty]

namespace WellFormed

variable {document : RegistryDocument} {name : Name}

theorem name_not_alias (hwf : document.WellFormed) (hname : name ∈ document.threads)
    : name ∉ document.aliases := by
  intro hformer
  obtain ⟨target, htarget⟩ := mem_iff.mp hformer
  exact (hwf.aliasNames name target htarget).2 hname

theorem canonicalName_of_mem (hwf : document.WellFormed) (hname : name ∈ document.threads)
    : document.canonicalName name = name := by
  have hnone := get?_eq_none_iff.mpr (hwf.name_not_alias hname)
  simp [RegistryPresence.canonicalName, hnone]

theorem mem_of_requireThread (hwf : document.WellFormed) {thread : Thread}
    (hok : document.requireThread name = .ok thread) :
    document.threads.get? thread.name = some thread := by
  rw [RegistryPresence.requireThread, orRefuse_eq_ok] at hok
  rw [hwf.rowNames _ _ hok]
  exact hok

end WellFormed

theorem Evolves.refl (hwf : document.WellFormed) : Evolves lost document document :=
  ⟨hwf, fun _ hknown => .inl hknown⟩

theorem Evolves.trans {middle : RegistryDocument} (hfirst : Evolves lost document middle)
    (hrest : Evolves lost middle edited) : Evolves lost document edited := by
  refine ⟨hrest.wellFormed, fun name hknown => ?_⟩
  rcases hfirst.known name hknown with hmiddle | hlost
  · exact hrest.known name hmiddle
  · exact .inr hlost

/-! ### Edits in place -/

/-- Rows are rewritten under their names and births; names, statuses and aliases
stay, and generations are only added. -/
structure Keeps (document edited : RegistryDocument) : Prop where
  births : ∀ name, (edited.threads.get? name).map birth =
    (document.threads.get? name).map birth
  rows : ∀ name thread, edited.threads.get? name = some thread →
    document.threads.get? name = some thread ∨ thread.name = name
  statuses : ∀ name, name ∈ edited.statuses ↔ name ∈ document.statuses
  aliases : edited.aliases = document.aliases
  owners : ∀ name, name ∈ document.owners.generations → name ∈ edited.owners.generations
  claims : ∀ name, name ∈ document.claims.generations → name ∈ edited.claims.generations

theorem Keeps.refl (document : RegistryDocument) : Keeps document document where
  births := fun _ => rfl
  rows := fun _ _ hget => .inl hget
  statuses := fun _ => Iff.rfl
  aliases := rfl
  owners := fun _ hname => hname
  claims := fun _ hname => hname

theorem Keeps.trans {middle : RegistryDocument} (hfirst : Keeps document middle)
    (hrest : Keeps middle edited) : Keeps document edited where
  births := fun name => (hrest.births name).trans (hfirst.births name)
  rows := fun name thread hget => (hrest.rows name thread hget).elim
    (fun hmiddle => hfirst.rows name thread hmiddle) .inr
  statuses := fun name => (hrest.statuses name).trans (hfirst.statuses name)
  aliases := hrest.aliases.trans hfirst.aliases
  owners := fun name hname => hrest.owners name (hfirst.owners name hname)
  claims := fun name hname => hrest.claims name (hfirst.claims name hname)

theorem keeps_setThread (document : RegistryDocument) (thread : Thread)
    (hrow : (document.threads.get? thread.name).map birth = some thread.birth) :
    Keeps document (document.setThread thread) := by
  refine { Keeps.refl document with births := ?_, rows := ?_ }
  · intro name
    simp only [setThread, get?_set]
    split
    · rename_i hname
      rw [hname, hrow, map_some]
    · rfl
  · intro name written hget
    rcases get?_set_eq_some.mp hget with ⟨hname, rfl⟩ | ⟨-, hget⟩
    · exact .inr hname.symm
    · exact .inl hget

theorem keeps_setStatus (document : RegistryDocument) {name : Name} (status : ThreadStatus)
    (hname : name ∈ document.statuses) : Keeps document (document.setStatus name status) := by
  refine { Keeps.refl document with statuses := fun other => ?_ }
  simp only [setStatus, Dict.mem_set]
  constructor
  · rintro (rfl | hother)
    · exact hname
    · exact hother
  · exact .inr

theorem keeps_setSeen (document : RegistryDocument) (name : Name) (time : Time) :
    Keeps document (document.setSeen name time) :=
  { Keeps.refl document with }

theorem keeps_advanceClaim (document : RegistryDocument) (name : Name) :
    Keeps document (document.advanceClaim name) :=
  { Keeps.refl document with
    claims := fun _ hother => mem_advance.mpr (.inr hother) }

theorem keeps_advanceOwner (document : RegistryDocument) (name : Name) :
    Keeps document (document.advanceOwner name) :=
  { Keeps.refl document with
    owners := fun _ hother => mem_advance.mpr (.inr hother) }

theorem keeps_withdrawOwner (document : RegistryDocument) (status : ThreadStatus)
    (name : Name) : Keeps document (document.withdrawOwner status name) := by
  unfold withdrawOwner
  split
  · exact keeps_advanceOwner document name
  · exact Keeps.refl document

section

variable (hkeeps : Keeps document edited)
include hkeeps

theorem Keeps.mem_threads (name : Name) : name ∈ edited.threads ↔ name ∈ document.threads := by
  have hbirths := congrArg Option.isSome (hkeeps.births name)
  rw [isSome_map, isSome_map] at hbirths
  rw [mem_iff, mem_iff, ← isSome_iff_exists, hbirths, isSome_iff_exists]

theorem Keeps.wellFormed (hwf : document.WellFormed) : edited.WellFormed where
  rowNames := fun name thread hget => (hkeeps.rows name thread hget).elim
    (fun hold => hwf.rowNames name thread hold) id
  statusNames := fun name => (hkeeps.statuses name).trans
    ((hwf.statusNames name).trans (hkeeps.mem_threads name).symm)
  ownerNames := fun name hname =>
    hkeeps.owners name (hwf.ownerNames name ((hkeeps.mem_threads name).mp hname))
  claimNames := fun name hname =>
    hkeeps.claims name (hwf.claimNames name ((hkeeps.mem_threads name).mp hname))
  aliasNames := by
    intro former target hget
    rw [hkeeps.aliases] at hget
    rw [hkeeps.mem_threads, hkeeps.mem_threads]
    exact hwf.aliasNames former target hget
  distinctBirths := by
    intro name other thread thread' hget hget' heq
    have hbirth := hkeeps.births name
    have hbirth' := hkeeps.births other
    rw [hget] at hbirth
    rw [hget'] at hbirth'
    obtain ⟨before, hbefore, hsame⟩ := map_eq_some_iff.mp hbirth.symm
    obtain ⟨before', hbefore', hsame'⟩ := map_eq_some_iff.mp hbirth'.symm
    exact hwf.distinctBirths name other before before' hbefore hbefore'
      (hsame.trans (heq.trans hsame'.symm))

theorem Keeps.evolves (hwf : document.WellFormed) : Evolves lost document edited := by
  refine ⟨hkeeps.wellFormed hwf, fun name hknown => .inl ?_⟩
  rcases hknown with hthread | hformer | hclaim
  · exact .inl ((hkeeps.mem_threads name).mpr hthread)
  · exact .inr (.inl (hkeeps.aliases ▸ hformer))
  · exact .inr (.inr (hkeeps.claims name hclaim))

theorem Keeps.setThread {current written : Thread}
    (hget : document.threads.get? current.name = some current) (hname : written.name = current.name)
    (hbirth : written.birth = current.birth) : Keeps document (edited.setThread written) := by
  refine hkeeps.trans (keeps_setThread edited written ?_)
  rw [hname, hkeeps.births, hget, hbirth, map_some]

theorem Keeps.setStatus (hwf : document.WellFormed) {name : Name}
    (hname : name ∈ document.threads) (status : ThreadStatus)
    : Keeps document (edited.setStatus name status) :=
  hkeeps.trans (keeps_setStatus edited status
    ((hkeeps.statuses name).mpr ((hwf.statusNames name).mpr hname)))

theorem Keeps.setSeen (name : Name) (time : Time) : Keeps document (edited.setSeen name time) :=
  hkeeps.trans (keeps_setSeen edited name time)

theorem Keeps.advanceClaim (name : Name) : Keeps document (edited.advanceClaim name) :=
  hkeeps.trans (keeps_advanceClaim edited name)

theorem Keeps.advanceOwner (name : Name) : Keeps document (edited.advanceOwner name) :=
  hkeeps.trans (keeps_advanceOwner edited name)

end

/-! ### A first declaration -/

structure Fresh (document : RegistryDocument) (thread : Thread) : Prop where
  name : thread.name ∉ document.threads
  notAlias : thread.name ∉ document.aliases
  birth : ∀ other declared, document.threads.get? other = some declared →
    declared.birth ≠ thread.birth

def declare (document : RegistryDocument) (thread : Thread) (status : ThreadStatus)
    (seen : Time) : RegistryDocument :=
  (((document.setThread thread).setStatus thread.name status).setSeen thread.name seen
    |>.advanceClaim thread.name).advanceOwner thread.name

theorem get?_declare (document : RegistryDocument) (thread : Thread) (status : ThreadStatus)
    (seen : Time) (name : Name) :
    (document.declare thread status seen).threads.get? name =
      if name = thread.name then some thread else document.threads.get? name :=
  get?_set _ _ _ _

theorem mem_declare {thread : Thread} {status : ThreadStatus} {seen : Time} {name : Name} :
    name ∈ (document.declare thread status seen).threads ↔
      name = thread.name ∨ name ∈ document.threads :=
  Dict.mem_set

theorem Fresh.evolves_declare {thread : Thread} (hfresh : document.Fresh thread)
    (hwf : document.WellFormed) (status : ThreadStatus) (seen : Time) :
    Evolves lost document (document.declare thread status seen) := by
  constructor
  · constructor
    · intro name row hget
      rw [get?_declare] at hget
      split at hget
      · rename_i hname
        exact Option.some.inj hget ▸ hname.symm
      · exact hwf.rowNames name row hget
    · intro name
      rw [mem_declare, ← hwf.statusNames name]
      exact Dict.mem_set
    · intro name hname
      refine mem_advance.mpr ?_
      exact (mem_declare.mp hname).imp_right (hwf.ownerNames name)
    · intro name hname
      refine mem_advance.mpr ?_
      exact (mem_declare.mp hname).imp_right (hwf.claimNames name)
    · intro former target hget
      have hold := hwf.aliasNames former target hget
      refine ⟨mem_declare.mpr (.inr hold.1), fun hname => ?_⟩
      rcases mem_declare.mp hname with heq | hthread
      · exact hfresh.notAlias (heq ▸ mem_of_get? hget)
      · exact hold.2 hthread
    · intro name other row row' hget hget' heq
      rw [get?_declare] at hget hget'
      split at hget <;> split at hget'
      · rename_i hname hother
        exact hname.trans hother.symm
      · exact absurd (Option.some.inj hget ▸ heq.symm) (hfresh.birth other row' hget')
      · exact absurd (Option.some.inj hget' ▸ heq) (hfresh.birth name row hget)
      · exact hwf.distinctBirths name other row row' hget hget' heq
  · intro name hknown
    refine .inl (hknown.imp (fun hthread => mem_declare.mpr (.inr hthread)) ?_)
    exact Or.imp_right fun hclaim => mem_advance.mpr (.inr hclaim)

end RegistryDocument

/-! ### Rewritten declarations keep their identity -/

namespace Thread

variable {thread : Thread}

def SameIdentity (written current : Thread) : Prop :=
  written.name = current.name ∧ written.birth = current.birth

theorem sameIdentity_of_make {fields : ThreadFields} {written current : Thread}
    (hok : make fields = .ok written) (hname : fields.name = current.name)
    (hbirth : fields.createdAt.birth = current.birth) : written.SameIdentity current := by
  rw [make_eq_ok] at hok
  exact ⟨by rw [hok, hname], by rw [birth, hok, hbirth]⟩

theorem withoutTurn_sameIdentity {idle : Thread} (hok : thread.withoutTurn = .ok idle)
    : idle.SameIdentity thread :=
  sameIdentity_of_make hok rfl rfl

theorem withoutProcess_sameIdentity {stopped : Thread} (hok : thread.withoutProcess = .ok stopped)
    : stopped.SameIdentity thread := by
  rw [withoutProcess, bind_eq_ok] at hok
  obtain ⟨idle, hidle, hstopped⟩ := hok
  have hfirst := withoutTurn_sameIdentity hidle
  exact sameIdentity_of_make hstopped hfirst.1 hfirst.2

theorem preserveRegistrationHistory_fields {previous written : Thread}
    (hok : thread.preserveRegistrationHistory previous = .ok written) :
    written.toThreadFields = { thread.toThreadFields with
      createdAt := previous.createdAt
      channelScopeGeneration := if thread.tags = previous.tags then
        previous.channelScopeGeneration else previous.channelScopeGeneration + 1
      offered := previous.offered
      offeredBeforeRestart := previous.offeredBeforeRestart
      turnGeneration := previous.turnGeneration
      turnRecord := if thread.turnGeneration = previous.turnGeneration then thread.turnRecord
        else previous.turnRecord } := by
  simp only [preserveRegistrationHistory, bind_eq_ok] at hok
  obtain ⟨-, -, result, hresult, hwritten⟩ := hok
  rw [make_eq_ok] at hresult
  split at hwritten
  next hsame =>
    rw [pure_eq_ok] at hwritten
    rw [← hwritten, hresult, if_pos hsame, ← hsame]
  next hother => rw [make_eq_ok.mp hwritten, hresult, if_neg hother]

theorem preserveRegistrationHistory_identity {previous written : Thread}
    (hok : thread.preserveRegistrationHistory previous = .ok written) :
    written.name = thread.name ∧ written.birth = previous.birth := by
  have hfields := preserveRegistrationHistory_fields hok
  exact ⟨by rw [hfields], by rw [birth, hfields, birth]⟩

end Thread

namespace RegistryDocument

variable {document edited written : RegistryDocument} {change : RegistrationChange}
  {env : Environment} {thread : Thread} {lost : Name → Prop} {source : RegistrySnapshot}
  {names : List Name} {parent : Option Name} {forks : List Thread} {name newName : Name}

/-! ### Registration -/

/-- A prepared change is a first declaration of a fresh thread, or rewrites the
declared row it replaces. -/
def Prepared (document : RegistryDocument) (change : RegistrationChange) : Prop :=
  match change.prior with
  | .initial _ => document.Fresh change.thread
  | .updated previous _ _ => document.threads.get? previous.name = some previous ∧
      change.thread.SameIdentity previous

theorem Prepared.of_initial {restart : Bool} (hprior : change.prior = .initial restart)
    (hprepared : document.Prepared change) : document.Fresh change.thread := by
  simpa only [Prepared, hprior] using hprepared

theorem Prepared.of_updated {previous : Thread} {previousStatus : ThreadStatus} {restart : Bool}
    (hprior : change.prior = .updated previous previousStatus restart)
    (hprepared : document.Prepared change) :
    document.threads.get? previous.name = some previous ∧
      change.thread.SameIdentity previous := by
  simpa only [Prepared, hprior] using hprepared

theorem prepared_of_prepareRegistration {status : ThreadStatus} {newOwner : Bool}
    (hwf : document.WellFormed)
    (hok : document.prepareRegistration env thread status newOwner = .ok change) :
    document.Prepared change := by
  simp only [prepareRegistration, do_eq_ok] at hok
  obtain ⟨-, hformer, -, -, hok⟩ := hok
  split at hok
  · rename_i previous hprevious
    simp only [do_eq_ok] at hok
    obtain ⟨written, hwritten, previousStatus, -, rfl⟩ := hok
    have hidentity := Thread.preserveRegistrationHistory_identity hwritten
    have hname := hwf.rowNames _ _ hprevious
    exact ⟨hname ▸ hprevious, hidentity.1.trans hname.symm, hidentity.2⟩
  · rename_i hnone
    simp only [do_eq_ok, make_eq_ok] at hok
    obtain ⟨createdAt, hcreated, written, hwritten, rfl⟩ := hok
    have hname : written.name = thread.name := by rw [hwritten]
    have hbirth : written.birth = createdAt.birth := by rw [birth, hwritten]
    refine ⟨?_, hname ▸ hformer, ?_⟩
    · rw [hname]
      exact get?_eq_none_iff.mp hnone
    · intro other declared hget heq
      refine CreationTime.distinctFrom_not_mem hcreated ?_
      rw [← hbirth, ← heq]
      exact List.mem_map_of_mem (mem_values.mpr ⟨other, hget⟩)

theorem Prepared.restarted (hprepared : document.Prepared change)
    : document.Prepared change.restarted := by
  unfold RegistrationChange.restarted Prepared at *
  cases hprior : change.prior with
  | initial | updated => simpa only [hprior] using hprepared

theorem Prepared.declared {decided : RegistrationChange} {requested : Thread}
    (hprepared : document.Prepared change) (hok : change.declared requested = .ok decided)
    : document.Prepared decided := by
  unfold RegistrationChange.declared at hok
  split at hok
  · cases hok
    exact hprepared
  · rename_i previous previousStatus restart hprior
    have hupdated := hprepared.of_updated hprior
    split at hok
    · -- the running executor keeps its process and turn
      simp only [do_eq_ok] at hok
      obtain ⟨-, -, -, -, written, hwritten, rfl⟩ := hok
      simp only [Prepared, hprior]
      exact ⟨hupdated.1, Thread.sameIdentity_of_make hwritten hupdated.2.1 hupdated.2.2⟩
    · cases hok
      unfold RegistrationChange.overProcess
      split
      · split
        · exact hprepared.restarted
        · exact hprepared
      · exact hprepared

theorem prepared_of_prepareDeclaration {status : ThreadStatus} (hwf : document.WellFormed)
    (hok : document.prepareDeclaration env thread status = .ok change) :
    document.Prepared change := by
  simp only [prepareDeclaration, bind_eq_ok] at hok
  obtain ⟨requested, -, prepared, hprepared, hchange⟩ := hok
  exact (prepared_of_prepareRegistration hwf hprepared).declared hchange

theorem Fresh.congr {written : Thread} (hfresh : document.Fresh thread)
    (hsame : written.SameIdentity thread) : document.Fresh written :=
  ⟨hsame.1 ▸ hfresh.name, hsame.1 ▸ hfresh.notAlias,
    fun other declared hget => hsame.2 ▸ hfresh.birth other declared hget⟩

theorem installedThread_frame (hok : change.installedThread = .ok thread) :
    thread.SameIdentity change.thread ∧ thread.parent = change.thread.parent ∧
      thread.turnGeneration = change.thread.turnGeneration ∧
      thread.turnRecord = change.thread.turnRecord := by
  unfold RegistrationChange.installedThread at hok
  split at hok
  · refine ⟨Thread.sameIdentity_of_make hok rfl rfl, ?_, ?_, ?_⟩ <;> rw [make_eq_ok.mp hok]
  · cases hok
    exact ⟨⟨rfl, rfl⟩, rfl, rfl, rfl⟩

theorem apply_evolves (hwf : document.WellFormed) (hprepared : document.Prepared change)
    (hok : change.apply env document = .ok edited) : Evolves lost document edited := by
  simp only [RegistrationChange.apply, do_eq_ok] at hok
  obtain ⟨thread, hthread, rfl⟩ := hok
  obtain ⟨hidentity, -⟩ := installedThread_frame hthread
  cases hprior : change.prior with
  | initial =>
    have howner : change.changesOwner = true := by
      simp [RegistrationChange.changesOwner, hprior]
    rw [if_pos howner]
    exact ((hprepared.of_initial hprior).congr hidentity).evolves_declare hwf change.status env.now
  | updated previous =>
    obtain ⟨hget, hsame⟩ := hprepared.of_updated hprior
    have hname : thread.name = previous.name := hidentity.1.trans hsame.1
    have hmem : thread.name ∈ document.threads := hname ▸ mem_of_get? hget
    have hinstalled := (((Keeps.refl document).setThread hget hname
      (hidentity.2.trans hsame.2)).setStatus hwf hmem change.status).setSeen
        thread.name env.now
    refine Keeps.evolves ?_ hwf
    split
    · exact (hinstalled.advanceClaim thread.name).advanceOwner thread.name
    · exact hinstalled

/-! ### Restoration -/

/-- The additions are the stopped forms of the selected threads that the document lacks, fresh
and pairwise distinct. -/
structure Restores (document : RegistryDocument) (source : RegistrySnapshot) (names : List Name)
    (additions : List Thread) : Prop where
  fresh : ∀ thread ∈ additions, document.Fresh thread
  distinct : additions.Pairwise fun thread other =>
    thread.name ≠ other.name ∧ thread.birth ≠ other.birth
  saved : ∀ thread ∈ additions, thread.name ∈ names ∧
    ∃ saved, source.threads.get? thread.name = some saved ∧ saved.withoutProcess = .ok thread
  selected : ∀ name ∈ names, name ∈ document.threads ∨ ∃ added ∈ additions, added.name = name

theorem restores_of_restoreAdditions {births : List Nat} {additions : List Thread}
    (hbirths : document.births ⊆ births) (hnodup : names.Nodup)
    (hok : document.restoreAdditions source names births = .ok additions) :
    document.Restores source names additions ∧ ∀ thread ∈ additions, thread.birth ∉ births := by
  induction names generalizing births additions with
  | nil =>
    cases hok
    exact ⟨⟨by simp, .nil, by simp, by simp⟩, by simp⟩
  | cons name names ih =>
    rw [List.nodup_cons] at hnodup
    simp only [restoreAdditions, do_eq_ok] at hok
    obtain ⟨saved, hsaved, hok⟩ := hok
    split at hok
    next existing hexisting =>
      simp only [do_eq_ok] at hok
      obtain ⟨-, -, hrest⟩ := hok
      obtain ⟨hrestores, hnew⟩ := ih hbirths hnodup.2 hrest
      exact ⟨{ hrestores with
        saved := fun thread hthread =>
          (hrestores.saved thread hthread).imp_left (List.mem_cons_of_mem _)
        selected := List.forall_mem_cons.mpr
          ⟨.inl (mem_of_get? hexisting), hrestores.selected⟩ }, hnew⟩
    next hnone =>
      simp only [do_eq_ok] at hok
      obtain ⟨-, ⟨hformer, hbirth⟩, stopped, hstopped, rest, hrest, rfl⟩ := hok
      obtain ⟨hrestores, hnew⟩ := ih (List.subset_cons_of_subset _ hbirths) hnodup.2 hrest
      obtain ⟨hname, hsame⟩ := Thread.withoutProcess_sameIdentity hstopped
      rw [source.rowNames (name, saved) (Dict.mem_entries.mpr hsaved)] at hname
      subst hname
      refine ⟨⟨List.forall_mem_cons.mpr ⟨⟨get?_eq_none_iff.mp hnone, hformer, ?_⟩,
        hrestores.fresh⟩, .cons ?_ hrestores.distinct, List.forall_mem_cons.mpr
          ⟨⟨List.mem_cons_self, saved, hsaved, hstopped⟩, fun thread hthread =>
            (hrestores.saved thread hthread).imp_left (List.mem_cons_of_mem _)⟩,
        List.forall_mem_cons.mpr ⟨.inr ⟨stopped, List.mem_cons_self, rfl⟩, fun other hother =>
          (hrestores.selected other hother).imp_right
            (Exists.imp fun _ => And.imp_left (List.mem_cons_of_mem _))⟩⟩,
        List.forall_mem_cons.mpr ⟨hsame ▸ hbirth, fun thread hthread hold =>
          hnew thread hthread (List.mem_cons_of_mem _ hold)⟩⟩
      · intro other declared hget heq
        refine hbirth (hbirths (hsame ▸ heq ▸ ?_))
        exact List.mem_map_of_mem (mem_values.mpr ⟨other, hget⟩)
      · intro other hother
        refine ⟨fun heq => hnodup.1 (heq ▸ (hrestores.saved other hother).1), fun heq => ?_⟩
        refine hnew other hother ?_
        rw [← heq, hsame]
        exact List.mem_cons_self

theorem restoreStopped_cases {restored : List Name}
    (hok : document.restoreStopped env source names = .ok (edited, restored)) :
    ∃ additions written, document.Restores source names additions ∧
      additions.foldlM (restoreThread env source) document = .ok written ∧
      edited = { written with
        aliases := written.aliases.update (source.restorableAliases (additions.foldl
          (fun rows thread => rows.set thread.name thread) document.threads)
          document.aliases) } := by
  simp only [restoreStopped, do_eq_ok] at hok
  obtain ⟨additions, hadditions, written, hwritten, rfl, -⟩ := hok
  have hrestores := (restores_of_restoreAdditions (List.Subset.refl _) (Dict.fromKeys names).nodup
    hadditions).1
  refine ⟨additions, written, { hrestores with
    saved := fun thread hthread => (hrestores.saved thread hthread).imp_left Dict.mem_fromKeys.mp
    selected := fun name hname => hrestores.selected name (Dict.mem_fromKeys.mpr hname) },
    hwritten, rfl⟩

/-- A fresh thread stays fresh when another name and birth are declared. -/
theorem Fresh.declare {other : Thread} (hfresh : document.Fresh other)
    (hdistinct : thread.name ≠ other.name ∧ thread.birth ≠ other.birth) (status : ThreadStatus)
    (seen : Time) : (document.declare thread status seen).Fresh other := by
  refine ⟨?_, hfresh.notAlias, ?_⟩
  · rw [mem_declare]
    rintro (heq | hmem)
    · exact hdistinct.1 heq.symm
    · exact hfresh.name hmem
  · intro name declared hget
    rw [get?_declare] at hget
    split at hget
    · cases hget
      exact hdistinct.2
    · exact hfresh.birth name declared hget

theorem restoreThread_eq (hok : restoreThread env source document thread = .ok written) :
    ∃ status seen, written = document.declare thread status seen := by
  simp only [restoreThread, do_eq_ok] at hok
  obtain ⟨status, -, -, -, seen, -, rfl⟩ := hok
  exact ⟨status.restored, seen, rfl⟩

theorem restoreThreads_evolves (additions : List Thread) (hwf : document.WellFormed)
    (hfresh : ∀ thread ∈ additions, document.Fresh thread)
    (hpairwise : additions.Pairwise fun thread other =>
      thread.name ≠ other.name ∧ thread.birth ≠ other.birth)
    (hok : additions.foldlM (restoreThread env source) document = .ok written) :
    Evolves lost document written ∧ written.aliases = document.aliases ∧
      written.threads = additions.foldl (fun rows thread => rows.set thread.name thread)
        document.threads := by
  induction additions generalizing document with
  | nil =>
    cases hok
    exact ⟨Evolves.refl hwf, rfl, rfl⟩
  | cons thread additions ih =>
    rw [List.foldlM_cons, bind_eq_ok] at hok
    obtain ⟨middle, hmiddle, hrest⟩ := hok
    obtain ⟨status, seen, rfl⟩ := restoreThread_eq hmiddle
    rw [List.pairwise_cons] at hpairwise
    have hdeclared : Evolves lost document (document.declare thread status seen) :=
      (hfresh thread List.mem_cons_self).evolves_declare hwf status seen
    have hstill : ∀ other ∈ additions, (document.declare thread status seen).Fresh other :=
      fun other hother => (hfresh other (List.mem_cons_of_mem _ hother)).declare
        (hpairwise.1 other hother) status seen
    obtain ⟨hevolves, haliases, hthreads⟩ := ih hdeclared.wellFormed hstill hpairwise.2 hrest
    exact ⟨hdeclared.trans hevolves, haliases, hthreads⟩

/-- Aliases of declared threads whose text no declaration occupies may be retained. -/
theorem evolves_updateAliases (hwf : document.WellFormed) (added : Dict Name Name)
    (hadded : ∀ former target, added.get? former = some target →
      target ∈ document.threads ∧ former ∉ document.threads) :
    Evolves lost document { document with aliases := document.aliases.update added } := by
  constructor
  · refine { hwf with aliasNames := fun former target hget => ?_ }
    simp only [Dict.get?_update] at hget
    cases hnew : added.get? former with
    | none =>
      rw [hnew, Option.none_or] at hget
      exact hwf.aliasNames former target hget
    | some =>
      rw [hnew, Option.some_or] at hget
      exact hadded former target (hnew.trans hget)
  · intro name hknown
    exact .inl (hknown.imp_right (Or.imp_left fun hformer => Dict.mem_update.mpr (.inr hformer)))

theorem restoreStopped_evolves {restored : List Name} (hwf : document.WellFormed)
    (hok : document.restoreStopped env source names = .ok (edited, restored)) :
    Evolves lost document edited := by
  obtain ⟨additions, written, hrestores, hwritten, rfl⟩ := restoreStopped_cases hok
  obtain ⟨hevolves, haliases, hthreads⟩ :
      Evolves lost document written ∧ written.aliases = document.aliases ∧ _ :=
    restoreThreads_evolves additions hwf hrestores.fresh hrestores.distinct hwritten
  refine hevolves.trans (evolves_updateAliases hevolves.wellFormed _ fun former target hget => ?_)
  -- a restorable alias is unoccupied and its target is declared in both registries
  rw [RegistrySnapshot.restorableAliases, Dict.get?_filter, Option.filter_eq_some_iff] at hget
  obtain ⟨-, hkeep⟩ := hget
  simp only [Bool.and_eq_true, decide_eq_true_eq, RegistrySnapshot.matching] at hkeep
  rw [hthreads]
  refine ⟨?_, hkeep.1.1⟩
  split at hkeep
  · rename_i hsource havailable
    exact mem_of_get? havailable
  · simp at hkeep

/-! ### Rename -/

theorem setParent_frame (hforks : ∀ child ∈ forks, document.threads.get? child.name = some child)
    (hok : forks.foldlM (setParent parent) document = .ok edited) :
    Keeps document edited ∧ (edited.owners = document.owners ∧ edited.claims = document.claims) ∧
      ∀ name, (edited.threads.get? name).map turnColumns =
        (document.threads.get? name).map turnColumns := by
  refine foldlM_invariant (fun middle : RegistryDocument => Keeps document middle ∧
      (middle.owners = document.owners ∧ middle.claims = document.claims) ∧
      ∀ name, (middle.threads.get? name).map turnColumns =
        (document.threads.get? name).map turnColumns)
    (fun child hchild middle next hmiddle hnext => ?_)
    ⟨Keeps.refl document, ⟨rfl, rfl⟩, fun _ => rfl⟩ hok
  obtain ⟨hkeeps, hcounters, hturns⟩ := hmiddle
  simp only [setParent, do_eq_ok] at hnext
  obtain ⟨forked, hforked, rfl⟩ := hnext
  have hidentity : forked.SameIdentity child := Thread.sameIdentity_of_make hforked rfl rfl
  have hget := hforks child hchild
  refine ⟨hkeeps.setThread hget hidentity.1 hidentity.2, hcounters, fun other => ?_⟩
  have hturn : forked.turnColumns = child.turnColumns := by
    simp only [turnColumns, birth, make_eq_ok.mp hforked]
  simp only [setThread, get?_set]
  split
  next heq => rw [heq, hidentity.1, hget, map_some, map_some, hturn]
  · exact hturns other

theorem get?_of_mem_children
    (hrows : ∀ name thread, document.threads.get? name = some thread → thread.name = name)
    {child : Thread} (hchild : child ∈ document.children name) :
    document.threads.get? child.name = some child := by
  obtain ⟨key, hkey⟩ := mem_values.mp (List.mem_filter.mp hchild).1
  rw [hrows key child hkey]
  exact hkey

/-- Rows keep their parent, or are forks that were given another. -/
theorem setParent_parents (hok : forks.foldlM (setParent parent) document = .ok edited)
    (hget : edited.threads.get? name = some thread) :
    thread.parent = parent ∨
      document.threads.get? name = some thread ∧ ∀ fork ∈ forks, fork.name ≠ name := by
  induction forks generalizing document with
  | nil =>
    cases hok
    exact .inr ⟨hget, fun _ hmem => absurd hmem List.not_mem_nil⟩
  | cons fork forks ih =>
    simp only [List.foldlM_cons, setParent, do_eq_ok, make_eq_ok] at hok
    obtain ⟨_, ⟨forked, hforked, rfl⟩, hrest⟩ := hok
    rcases ih hrest with hgiven | ⟨hbefore, hothers⟩
    · exact .inl hgiven
    · rcases get?_set_eq_some.mp hbefore with ⟨-, rfl⟩ | ⟨hother, hbefore⟩
      · exact .inl (by rw [hforked])
      · rw [hforked] at hother
        exact .inr ⟨hbefore, List.forall_mem_cons.mpr ⟨fun heq => hother heq.symm, hothers⟩⟩

theorem mem_children (hcanonical : document.canonicalName name = name) {other : Name}
    (hget : document.threads.get? other = some thread) (hparent : thread.parent = some name) :
    thread ∈ document.children name := by
  rw [RegistryPresence.children, List.mem_filter, decide_eq_true_iff, hcanonical]
  exact ⟨mem_values.mpr ⟨other, hget⟩, hparent⟩

structure Renames (canonical newName : Name) (document edited : RegistryDocument) : Prop where
  births : ∀ name, (edited.threads.get? name).map birth =
    if name = newName then (document.threads.get? canonical).map birth
    else if name = canonical then none else (document.threads.get? name).map birth
  rows : ∀ name thread, edited.threads.get? name = some thread → thread.name = name
  statuses : ∀ name, name ∈ edited.statuses ↔
    name = newName ∨ (name ≠ canonical ∧ name ∈ document.statuses)
  aliases : ∀ former, edited.aliases.get? former =
    if former = canonical then some newName
    else if former = newName then none
    else (document.aliases.get? former).map (retarget canonical newName)
  owners : ∀ name, name = newName ∨ (name ≠ canonical ∧ name ∈ document.owners.generations) →
    name ∈ edited.owners.generations
  claims : ∀ name, name = newName ∨ (name ≠ canonical ∧ name ∈ document.claims.generations) →
    name ∈ edited.claims.generations

namespace Renames

variable {canonical newName : Name} {document edited : RegistryDocument}

variable (hrenames : Renames canonical newName document edited)
include hrenames

theorem mem_threads (hcanonical : canonical ∈ document.threads) (name : Name) :
    name ∈ edited.threads ↔ name = newName ∨ (name ≠ canonical ∧ name ∈ document.threads) := by
  have hbirths := congrArg Option.isSome (hrenames.births name)
  rw [isSome_map] at hbirths
  rw [mem_iff, ← isSome_iff_exists] at hcanonical ⊢
  rw [mem_iff, ← isSome_iff_exists, hbirths]
  split
  next hnew => simpa [hnew] using hcanonical
  next hnew => split <;> simp_all

/-- A birth found after the rename was declared before, under the old name if it
is found under the new one. -/
theorem birth_before (hget : edited.threads.get? name = some thread) :
    ∃ before, document.threads.get? (if name = newName then canonical else name) =
      some before ∧ before.birth = thread.birth := by
  have hbirths := hrenames.births name
  rw [hget] at hbirths
  by_cases hnew : name = newName
  · rw [if_pos hnew] at hbirths ⊢
    exact map_eq_some_iff.mp hbirths.symm
  · rw [if_neg hnew] at hbirths ⊢
    split at hbirths
    · cases hbirths
    · exact map_eq_some_iff.mp hbirths.symm

theorem wellFormed (hwf : document.WellFormed) (hcanonical : canonical ∈ document.threads)
    (hnew : newName ∉ document.threads) : edited.WellFormed := by
  have hmem := hrenames.mem_threads hcanonical
  have hne : canonical ≠ newName := fun heq => hnew (heq ▸ hcanonical)
  constructor
  · exact hrenames.rows
  · intro name
    rw [hrenames.statuses, hmem, hwf.statusNames]
  · intro name hname
    exact hrenames.owners name (((hmem name).mp hname).imp_right
      (And.imp_right (hwf.ownerNames name)))
  · intro name hname
    exact hrenames.claims name (((hmem name).mp hname).imp_right
      (And.imp_right (hwf.claimNames name)))
  · intro former target hget
    rw [hrenames.aliases] at hget
    split at hget
    · -- the old name itself now points at the new one
      rename_i hformer
      cases hget
      refine ⟨(hmem newName).mpr (.inl rfl), fun hthread => ?_⟩
      rcases (hmem former).mp hthread with heq | hold
      · exact hne (hformer.symm.trans heq)
      · exact hold.1 hformer
    · split at hget
      · cases hget
      · rename_i hformer hfresh
        obtain ⟨before, hbefore, rfl⟩ := map_eq_some_iff.mp hget
        have hold := hwf.aliasNames former before hbefore
        refine ⟨(hmem _).mpr ?_, fun hthread => ?_⟩
        · unfold retarget
          split
          · exact .inl rfl
          · rename_i htarget
            exact .inr ⟨htarget, hold.1⟩
        · rcases (hmem former).mp hthread with heq | hthread
          · exact hfresh heq
          · exact hold.2 hthread.2
  · intro name other thread thread' hget hget' heq
    obtain ⟨before, hbefore, hbirth⟩ := hrenames.birth_before hget
    obtain ⟨before', hbefore', hbirth'⟩ := hrenames.birth_before hget'
    have hsame := hwf.distinctBirths _ _ before before' hbefore hbefore'
      (hbirth.trans (heq.trans hbirth'.symm))
    have hname := (hmem name).mp (mem_of_get? hget)
    have hother := (hmem other).mp (mem_of_get? hget')
    split at hsame <;> split at hsame
    · rename_i hfirst hsecond
      exact hfirst.trans hsecond.symm
    · rename_i hfirst hsecond
      exact absurd hsame.symm (hother.resolve_left hsecond).1
    · rename_i hfirst hsecond
      exact absurd hsame (hname.resolve_left hfirst).1
    · exact hsame

theorem evolves (hwf : document.WellFormed)
    (hcanonical : canonical ∈ document.threads) (hnew : newName ∉ document.threads)
    : Evolves lost document edited := by
  have hmem := hrenames.mem_threads hcanonical
  refine ⟨hrenames.wellFormed hwf hcanonical hnew, fun name hknown => .inl ?_⟩
  -- the old name becomes an alias and the new one a thread; the others stay where they were
  by_cases hold : name = canonical
  · refine .inr (.inl (mem_iff.mpr ⟨newName, ?_⟩))
    rw [hrenames.aliases, if_pos hold]
  · by_cases hfresh : name = newName
    · exact .inl ((hmem name).mpr (.inl hfresh))
    · rcases hknown with hthread | hformer | hclaim
      · exact .inl ((hmem name).mpr (.inr ⟨hold, hthread⟩))
      · obtain ⟨target, htarget⟩ := mem_iff.mp hformer
        refine .inr (.inl (mem_iff.mpr ⟨retarget canonical newName target, ?_⟩))
        rw [hrenames.aliases, if_neg hold, if_neg hfresh, htarget, map_some]
      · exact .inr (.inr (hrenames.claims name (.inr ⟨hold, hclaim⟩)))

end Renames

/-- What a rename does: nothing when the name is already its own, else it moves
every map and both counters. -/
theorem rename_cases {names : Name × Name} (hwf : document.WellFormed)
    (hok : document.rename env name newName = .ok (edited, names)) :
    edited = document ∨ ∃ canonical ∈ document.threads, newName ∉ document.threads ∧
      Renames canonical newName document edited ∧
      (∀ name, (edited.threads.get? name).map turnColumns =
        if name = newName then (document.threads.get? canonical).map turnColumns
        else if name = canonical then none
        else (document.threads.get? name).map turnColumns) ∧
      (∀ other row, edited.threads.get? other = some row → row.parent = some newName ∨
        row.parent ≠ some canonical ∧ ∃ former before,
          document.threads.get? former = some before ∧ row.parent = before.parent) ∧
      document.owners.rename canonical newName = .ok edited.owners ∧
      document.claims.rename canonical newName = .ok edited.claims := by
  simp only [rename, do_eq_ok] at hok
  obtain ⟨current, hcurrent, hok⟩ := hok
  split at hok
  · simp only [do_eq_ok] at hok
    exact .inl hok.1.symm
  · rename_i hne
    simp only [do_eq_ok] at hok
    obtain ⟨-, -, -, -, -, htaken, replacement, hreplacement, status, -, seen, -,
      reparented, hreparented, claims, hclaims, owners, howners, rfl, -⟩ := hok
    set canonical := document.canonicalName name with hcanonical
    rw [make_eq_ok] at hreplacement
    have hturn : replacement.turnColumns = current.turnColumns := by
      simp only [turnColumns, birth, hreplacement]
    have hmoved : ∀ other thread,
        ((document.threads.erase canonical).set newName replacement).get? other = some thread →
        thread.name = other := by
      intro other thread hget
      rw [get?_set_eq_some, get?_erase_eq_some] at hget
      rcases hget with ⟨hother, rfl⟩ | ⟨-, -, hget⟩
      · rw [hreplacement, hother]
      · exact hwf.rowNames other thread hget
    obtain ⟨hkeeps, ⟨hsameOwners, hsameClaims⟩, hturns⟩ :=
      setParent_frame (fun child hchild => get?_of_mem_children hmoved hchild) hreparented
    have hclaimed := (GenerationCounter.rename_eq_ok hclaims).2
    have howned := (GenerationCounter.rename_eq_ok howners).2
    have hnew : newName ∉ document.threads := fun hmem => by
      simp [RegistryPresence.taken, hmem, hwf.canonicalName_of_mem hmem, hne] at htaken
    have hown : RegistryPresence.canonicalName { document.toRegistryPresence with
        aliases := document.aliases.erase newName } canonical = canonical := by
      have hnone := get?_eq_none_iff.mpr
        (hwf.name_not_alias (mem_of_get? hcurrent))
      simp [RegistryPresence.canonicalName, Dict.get?_erase, hnone]
    refine .inr ⟨canonical, mem_of_get? hcurrent, hnew, ?_, fun other => ?_,
      fun other row hget => ?_, hsameOwners ▸ howners, hsameClaims ▸ hclaims⟩
    rotate_left
    · rw [hturns, get?_set, Dict.get?_erase]
      split
      · rw [hcurrent, map_some, map_some, hturn]
      · split <;> rfl
    · rcases setParent_parents hreparented hget with hgiven | ⟨hbefore, hothers⟩
      · exact .inl hgiven
      · refine .inr ⟨fun hparent => hothers row (mem_children hown hbefore hparent)
          (hmoved other row hbefore), ?_⟩
        rw [get?_set_eq_some, get?_erase_eq_some] at hbefore
        rcases hbefore with ⟨-, rfl⟩ | ⟨-, -, hbefore⟩
        · exact ⟨canonical, current, hcurrent, by rw [hreplacement]⟩
        · exact ⟨other, row, hbefore, rfl⟩
    refine
      { births := fun other => ?_
        rows := fun other thread hget =>
          (hkeeps.rows other thread hget).elim (hmoved other thread) id
        statuses := fun other => (hkeeps.statuses other).trans (by simp)
        aliases := fun former => ?_
        owners := fun other hother => (howned other).mpr
          (hother.imp_right (And.imp_right (hkeeps.owners other)))
        claims := fun other hother => (hclaimed other).mpr
          (hother.imp_right (And.imp_right (hkeeps.claims other))) }
    · rw [hkeeps.births, get?_set, Dict.get?_erase]
      split
      · rw [hcurrent]
        exact congrArg (some ·.1) hturn
      · split <;> rfl
    · simp only [get?_set, Dict.get?_mapValues, Dict.get?_erase]
      split
      · rfl
      · split <;> rfl

theorem rename_evolves {names : Name × Name} (hwf : document.WellFormed)
    (hok : document.rename env name newName = .ok (edited, names)) :
    Evolves lost document edited := by
  rcases rename_cases hwf hok with rfl | ⟨canonical, hcanonical, hnew, hrenames, -⟩
  · exact Evolves.refl hwf
  · exact hrenames.evolves hwf hcanonical hnew

/-! ### Removal -/

/-- The names that a removal forgets: aliases of the removed thread that hold no
claim generation of their own. -/
def Unrecorded (document : RegistryDocument) (name former : Name) : Prop :=
  document.aliases.get? former = some (document.canonicalName name) ∧
    former ∉ document.claims.generations

theorem removeThread_evolves {detached : List Name} (hwf : document.WellFormed)
    (hok : document.removeThread env name = .ok (edited, detached)) :
    Evolves (document.Unrecorded name) document edited := by
  simp only [removeThread, do_eq_ok] at hok
  obtain ⟨thread, hthread, orphaned, horphaned, presence, -, rfl, -⟩ := hok
  have hname := hwf.rowNames _ _ (orRefuse_eq_ok.mp hthread)
  have hkeeps : Keeps document ((orphaned.withdrawOwner presence thread.name).advanceClaim
      thread.name) :=
    ((setParent_frame (fun child hchild => get?_of_mem_children hwf.rowNames hchild)
      horphaned).1.trans (keeps_withdrawOwner orphaned presence thread.name)).advanceClaim
        thread.name
  have hclaimed : thread.name ∈ ((orphaned.withdrawOwner presence
      thread.name).advanceClaim thread.name).claims.generations :=
    mem_advance.mpr (.inl rfl)
  generalize ((orphaned.withdrawOwner presence thread.name).advanceClaim thread.name) =
    withdrawn at hkeeps hclaimed
  have hmiddle := hkeeps.wellFormed hwf
  refine ⟨⟨?_, ?_, ?_, ?_, ?_, ?_⟩, ?_⟩
  · intro other row hget
    exact hmiddle.rowNames other row (get?_erase_eq_some.mp hget).2
  · intro other
    rw [mem_erase, mem_erase, hmiddle.statusNames]
  · intro other hother
    exact hmiddle.ownerNames other (mem_erase.mp hother).2
  · intro other hother
    exact hmiddle.claimNames other (mem_erase.mp hother).2
  · intro former target hget
    rw [Dict.get?_filter, Option.filter_eq_some_iff] at hget
    obtain ⟨hget, hkeep⟩ := hget
    have hold := hmiddle.aliasNames former target hget
    exact ⟨mem_erase.mpr ⟨by simpa using hkeep, hold.1⟩,
      fun hother => hold.2 (mem_erase.mp hother).2⟩
  · intro other other' row row' hget hget' heq
    exact hmiddle.distinctBirths other other' row row' (get?_erase_eq_some.mp hget).2
      (get?_erase_eq_some.mp hget').2 heq
  · intro other hknown
    -- the removed name keeps its claim generation; an alias of it survives only with its own
    by_cases hremoved : other = thread.name
    · exact .inl (.inr (.inr (hremoved ▸ hclaimed)))
    · rcases hknown with hthreads | hformer | hclaim
      · exact .inl (.inl (mem_erase.mpr
          ⟨hremoved, (hkeeps.mem_threads other).mpr hthreads⟩))
      · obtain ⟨target, htarget⟩ := mem_iff.mp hformer
        by_cases hlost : target = thread.name
        · by_cases hrecorded : other ∈ document.claims.generations
          · exact .inl (.inr (.inr (hkeeps.claims other hrecorded)))
          · exact .inr ⟨by rw [htarget, hlost, hname], hrecorded⟩
        · refine .inl (.inr (.inl (mem_iff.mpr ⟨target, ?_⟩)))
          rw [Dict.get?_filter, hkeeps.aliases, htarget]
          simp [Option.filter, hlost]
      · exact .inl (.inr (.inr (hkeeps.claims other hclaim)))

end RegistryDocument
end AgentComms.Registry
