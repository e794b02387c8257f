import AgentComms.Registry.Operations

/-!
# Elementary edits

Every operation of the document is a sequence of elementary edits: rewriting a row,
a status or a presence in place, advancing a generation, declaring a fresh thread,
renaming, removing, and retaining aliases. `RegistryOp.perform_edits` says so once;
a property of runs is then shown for each edit.
-/

namespace AgentComms.Registry

open Library

variable {op : Environment × RegistryOp} {document : RegistryDocument}

theorem CreationTime.distinctFrom_of_not_mem {time : CreationTime} {used : List Nat}
    (hfree : time.birth ∉ used) (hbound : time.birth < infinityBits) :
    ∃ distinct, time.distinctFrom used = .ok distinct ∧ time.birth = distinct.birth := by
  cases time with
  | recorded birth =>
    simp only [CreationTime.birth] at hfree
    refine ⟨.recorded birth, ?_, rfl⟩
    rw [CreationTime.distinctFrom, if_neg hfree]
  | generated birth =>
    simp only [CreationTime.birth] at hfree hbound
    have hsame : nextFree used used.length birth = birth := by
      cases used.length with
      | zero => rfl
      | succ => rw [nextFree, if_neg hfree]
    refine ⟨.recorded birth, ?_, rfl⟩
    simp only [CreationTime.distinctFrom, hsame]
    rw [if_pos hbound]

theorem Thread.birth_lt (thread : Thread) : thread.birth < infinityBits := by
  have haccepted := thread.accepted
  simp only [ThreadFields.check, do_eq_ok, exists_const] at haccepted
  exact haccepted.2.2.1.2

namespace Thread

variable {given given' : List Thread} {origin : RegistryDocument} {written current : Thread}

/-- The row keeps its turn generation, and its turn reference is the one it had, one that
is not live, or that of a declaration given for its name with the same generation. -/
structure KeepsTurn (given : List Thread) (origin : RegistryDocument)
    (written current : Thread) : Prop where
  generation : written.turnGeneration = current.turnGeneration
  record : written.turnRecord = current.turnRecord ∨ written.executing = false ∨
    ∃ thread ∈ given, origin.threads.get? (origin.canonicalName thread.name) = some current ∧
      thread.turnGeneration = current.turnGeneration ∧ written.turnRecord = thread.turnRecord

structure Rewrites (given : List Thread) (origin : RegistryDocument)
    (written current : Thread) : Prop where
  identity : written.SameIdentity current
  turn : written.KeepsTurn given origin current

/-- A first declaration under the canonical name of a given one, with its turn and with the
birth it takes beside those of the origin. -/
structure DeclaredFrom (origin : RegistryDocument) (declared thread : Thread) : Prop where
  fresh : declared.name ∉ origin.threads
  name : origin.canonicalName thread.name = declared.name
  generation : declared.turnGeneration = thread.turnGeneration
  record : declared.turnRecord = thread.turnRecord
  birth : ∃ createdAt, thread.createdAt.distinctFrom origin.births = .ok createdAt ∧
    declared.birth = createdAt.birth

theorem KeepsTurn.own {origin' : RegistryDocument} (hkeeps : written.KeepsTurn given origin current)
    (hgiven : ∀ thread ∈ given, thread.turnRecord = current.turnRecord) :
    written.KeepsTurn given' origin' current := by
  refine ⟨hkeeps.generation, ?_⟩
  rcases hkeeps.record with hsame | hidle | ⟨thread, hthread, -, -, hrecord⟩
  · exact .inl hsame
  · exact .inr (.inl hidle)
  · exact .inl (hrecord.trans (hgiven thread hthread))

end Thread

/-- The selected rows of a snapshot as they are restored. -/
def RegistrySnapshot.stopped (source : RegistrySnapshot) (names : List Name) : List Thread :=
  names.filterMap fun name =>
    (source.threads.get? name).bind fun saved => saved.withoutProcess.toOption

namespace RegistryDocument

inductive Edit (given : List Thread) (origin : RegistryDocument) :
    RegistryDocument → RegistryDocument → Prop
  | row {document : RegistryDocument} {current written : Thread}
      (hget : document.threads.get? current.name = some current)
      (hrewrites : written.Rewrites given origin current) :
      Edit given origin document (document.setThread written)
  | status (document : RegistryDocument) (name : Name) (status : ThreadStatus) :
      Edit given origin document (document.setStatus name status)
  | seen (document : RegistryDocument) (name : Name) (time : Time) :
      Edit given origin document (document.setSeen name time)
  | claim (document : RegistryDocument) (name : Name) :
      Edit given origin document (document.advanceClaim name)
  | owner (document : RegistryDocument) (name : Name) :
      Edit given origin document (document.advanceOwner name)
  | declare {document : RegistryDocument} {thread : Thread} (hfresh : document.Fresh thread)
      (hdeclared : ∃ handed ∈ given, thread.DeclaredFrom origin handed) (status : ThreadStatus)
      (seen : Time) :
      Edit given origin document (document.declare thread status seen)
  | rename {document edited : RegistryDocument} {canonical newName : Name}
      (hrenames : Renames canonical newName document edited)
      (hturns : ∀ name, (edited.threads.get? name).map Thread.turnColumns =
        if name = newName then (document.threads.get? canonical).map Thread.turnColumns
        else if name = canonical then none
        else (document.threads.get? name).map Thread.turnColumns)
      (hnew : newName ∉ document.threads)
      (howners : document.owners.rename canonical newName = .ok edited.owners)
      (hclaims : document.claims.rename canonical newName = .ok edited.claims) :
      Edit given origin document edited
  | remove (document : RegistryDocument) (name : Name) (statuses : Dict Name ThreadStatus)
      (lastSeen : Dict Name Time) (aliases : Dict Name Name) :
      Edit given origin document { document with
        threads := document.threads.erase name
        statuses := statuses
        lastSeen := lastSeen
        aliases := aliases }
  | aliases (document : RegistryDocument) (aliases : Dict Name Name) :
      Edit given origin document { document with aliases := aliases }

abbrev Edits (given : List Thread) (origin : RegistryDocument) :=
  Relation.ReflTransGen (Edit given origin)

variable {given : List Thread} {env : Environment} {origin document edited : RegistryDocument}
  {thread : Thread} {name : Name} {status : ThreadStatus} {newOwner : Bool}
  {change : RegistrationChange} {source : RegistrySnapshot}

/-! ### Operations in place -/

theorem Edits.row {current written : Thread} (hedits : Edits given origin document edited)
    (hget : edited.threads.get? current.name = some current)
    (hrewrites : written.Rewrites given origin current) :
    Edits given origin document (edited.setThread written) :=
  hedits.tail (.row hget hrewrites)

theorem Touches.edits (htouches : Touches document edited) :
    Edits given origin document edited := by
  refine Relation.ReflTransGen.mono (fun before after htouch => ?_) _ _ htouches
  cases htouch with
  | row hget hretouches =>
    exact .row hget ⟨hretouches.identity, hretouches.generation, hretouches.record.imp_right .inl⟩
  | status hname status => exact .status _ _ status
  | seen name time => exact .seen _ name time
  | claim name => exact .claim _ name
  | owner name => exact .owner _ name

/-! ### Registration -/

/-- The turn a change installs comes from the previous row or from a given declaration. -/
def TurnFrom (given : List Thread) (origin : RegistryDocument) (change : RegistrationChange) : Prop :=
  match change.prior with
  | .initial _ => ∃ handed ∈ given, change.thread.DeclaredFrom origin handed
  | .updated previous _ _ => change.thread.KeepsTurn given origin previous

/-- The prepared row is handed its turn and its creation time, under the canonical name. -/
theorem turnFrom_of_prepareRegistration {handed : Thread}
    (hname : document.canonicalName handed.name = thread.name)
    (hgeneration : thread.turnGeneration = handed.turnGeneration)
    (hrecord : thread.turnRecord = handed.turnRecord)
    (hcreated : thread.createdAt = handed.createdAt)
    (hok : document.prepareRegistration env thread status newOwner = .ok change) :
    TurnFrom [handed] document change := by
  simp only [prepareRegistration, do_eq_ok] at hok
  obtain ⟨-, -, -, -, hok⟩ := hok
  split at hok
  next previous hprevious =>
    simp only [do_eq_ok] at hok
    obtain ⟨written, hwritten, previousStatus, -, rfl⟩ := hok
    have hfields := Thread.preserveRegistrationHistory_fields hwritten
    refine ⟨by rw [hfields], ?_⟩
    -- with the same generation the registration's own reference stands
    by_cases hsame : thread.turnGeneration = previous.turnGeneration
    · refine .inr (.inr ⟨handed, List.mem_singleton_self _, hname ▸ hprevious,
        hgeneration.symm.trans hsame, ?_⟩)
      rw [hfields, if_pos hsame, hrecord]
    · exact .inl (by rw [hfields, if_neg hsame])
  next hnone =>
    simp only [do_eq_ok, Thread.make_eq_ok] at hok
    obtain ⟨createdAt, hdistinct, written, hwritten, rfl⟩ := hok
    have hsame : written.name = thread.name := by rw [hwritten]
    refine ⟨handed, List.mem_singleton_self _, ?_, hname.trans hsame.symm, ?_, ?_,
      createdAt, hcreated ▸ hdistinct, ?_⟩
    · rw [hsame]
      exact Dict.get?_eq_none_iff.mp hnone
    · rw [hwritten]
      exact hgeneration
    · rw [hwritten]
      exact hrecord
    · rw [Thread.birth, hwritten]

theorem TurnFrom.restarted (hturn : TurnFrom given origin change) :
    TurnFrom given origin change.restarted := by
  unfold RegistrationChange.restarted
  unfold TurnFrom at hturn ⊢
  cases hprior : change.prior with
  | initial | updated => simpa only [hprior] using hturn

theorem TurnFrom.declared {decided : RegistrationChange} {requested : Thread}
    (hturn : TurnFrom given origin change) (hok : change.declared requested = .ok decided) :
    TurnFrom given origin decided := by
  unfold RegistrationChange.declared at hok
  split at hok
  · cases hok
    exact hturn
  · rename_i previous previousStatus restart hprior
    split at hok
    · simp only [do_eq_ok, Thread.make_eq_ok] at hok
      obtain ⟨-, -, -, -, written, hwritten, rfl⟩ := hok
      simp only [TurnFrom, hprior]
      refine ⟨?_, .inl ?_⟩ <;> rw [hwritten]
    · cases hok
      unfold RegistrationChange.overProcess
      split
      · split
        · exact hturn.restarted
        · exact hturn
      · exact hturn

theorem apply_edits (hprepared : document.Prepared change) (hturn : TurnFrom given origin change)
    (hok : change.apply env document = .ok edited) : Edits given origin document edited := by
  simp only [RegistrationChange.apply, do_eq_ok] at hok
  obtain ⟨thread, hthread, rfl⟩ := hok
  obtain ⟨hsame, -, hgeneration, hrecord⟩ := installedThread_frame hthread
  unfold TurnFrom at hturn
  cases hprior : change.prior with
  | initial =>
    have howner : change.changesOwner = true := by
      simp [RegistrationChange.changesOwner, hprior]
    rw [if_pos howner]
    simp only [hprior] at hturn
    obtain ⟨handed, hhanded, hfrom⟩ := hturn
    obtain ⟨createdAt, hdistinct, hbirth⟩ := hfrom.birth
    have hdeclared : thread.DeclaredFrom origin handed :=
      ⟨hsame.1 ▸ hfrom.fresh, hfrom.name.trans hsame.1.symm, hgeneration.trans hfrom.generation,
        hrecord.trans hfrom.record, createdAt, hdistinct, hsame.2.trans hbirth⟩
    exact .single (.declare ((hprepared.of_initial hprior).congr hsame)
      ⟨handed, hhanded, hdeclared⟩ _ _)
  | updated previous =>
    obtain ⟨hget, hidentity⟩ := hprepared.of_updated hprior
    simp only [hprior] at hturn
    have hrewrites : thread.Rewrites given origin previous := by
      refine ⟨⟨hsame.1.trans hidentity.1, hsame.2.trans hidentity.2⟩,
        hgeneration.trans hturn.generation, ?_⟩
      rw [hrecord, Thread.executing, hrecord]
      exact hturn.record
    have hrow : Edits given origin document (document.setThread thread) :=
      Edits.row .refl hget hrewrites
    have hedits := (hrow.tail (.status _ thread.name change.status)).tail
      (.seen _ thread.name env.now)
    split
    · exact (hedits.tail (.claim _ _)).tail (.owner _ _)
    · exact hedits

theorem canonicalName_of_prepareRegistration
    (hok : document.prepareRegistration env thread status newOwner = .ok change) :
    document.canonicalName thread.name = thread.name := by
  simp only [prepareRegistration, do_eq_ok] at hok
  obtain ⟨-, hnotAlias, -⟩ := hok
  rw [RegistryPresence.canonicalName, Dict.get?_eq_none_iff.mpr hnotAlias]
  rfl

theorem forRegistration_turn {requested : Thread} {canonical : Name} {previous : Option Thread}
    (hok : thread.forRegistration canonical previous = .ok requested) :
    requested.name = canonical ∧ requested.turnGeneration = thread.turnGeneration ∧
      requested.turnRecord = thread.turnRecord ∧ requested.createdAt = thread.createdAt := by
  unfold Thread.forRegistration at hok
  split at hok
  · rw [Thread.make_eq_ok] at hok
    exact ⟨by rw [hok], by rw [hok], by rw [hok], by rw [hok]⟩
  · simp only [bind_eq_ok, Thread.make_eq_ok] at hok
    obtain ⟨role, -, hok⟩ := hok
    exact ⟨by rw [hok], by rw [hok], by rw [hok], by rw [hok]⟩

theorem declare_edits (hwf : document.WellFormed)
    (hchange : document.prepareDeclaration env thread status = .ok change)
    (hok : change.apply env document = .ok edited) : Edits [thread] document document edited := by
  refine apply_edits (prepared_of_prepareDeclaration hwf hchange) ?_ hok
  simp only [prepareDeclaration, bind_eq_ok] at hchange
  obtain ⟨requested, hrequested, prepared, hprepared, hdeclared⟩ := hchange
  obtain ⟨hname, hgeneration, hrecord, hcreated⟩ := forRegistration_turn hrequested
  exact (turnFrom_of_prepareRegistration hname.symm hgeneration hrecord hcreated
    hprepared).declared hdeclared

theorem changeTag_edits {originals : List Thread} {tag : String} {replacement : Option String}
    (hwf : document.WellFormed)
    (hok : document.changeTag env originals tag replacement = .ok edited) :
    Edits given origin document edited := by
  simp only [changeTag, bind_eq_ok] at hok
  obtain ⟨-, -, hok⟩ := hok
  have hrun := foldlM_invariant (fun middle => middle.WellFormed ∧ Edits given origin document middle)
    (fun original _ middle next hmiddle hnext => ?_) ⟨hwf, .refl⟩ hok
  · exact hrun.2
  · simp only [changeTagOf, bind_eq_ok, Thread.make_eq_ok] at hnext
    obtain ⟨current, hcurrent, retagged, hretagged, status, -, change, hchange, happly⟩ := hnext
    have hprepared := prepared_of_prepareRegistration hmiddle.1 hchange
    have hevolves : Evolves (fun _ => False) middle next := apply_evolves hmiddle.1 hprepared happly
    refine ⟨hevolves.wellFormed, hmiddle.2.trans (apply_edits hprepared ?_ happly)⟩
    -- the row is declared, and it is registered with its own turn
    have hget := hmiddle.1.mem_of_requireThread hcurrent
    have hname : retagged.name = current.name := by rw [hretagged]
    have hturn := turnFrom_of_prepareRegistration
      (canonicalName_of_prepareRegistration hchange) rfl rfl rfl hchange
    rw [← hname] at hget
    simp only [prepareRegistration, do_eq_ok, hget] at hchange
    obtain ⟨-, -, -, -, written, -, previousStatus, -, rfl⟩ := hchange
    simp only [TurnFrom] at hturn ⊢
    refine hturn.own fun thread hthread => ?_
    rw [List.mem_singleton.mp hthread, hretagged]

/-! ### Restoration, rename and removal -/

/-- A restored declaration is the stopped form of the saved one. -/
theorem Fresh.declaredFrom (hfresh : document.Fresh thread) :
    thread.DeclaredFrom document thread := by
  refine ⟨hfresh.name, ?_, rfl, rfl, ?_⟩
  · rw [RegistryPresence.canonicalName, Dict.get?_eq_none_iff.mpr hfresh.notAlias]
    rfl
  · refine CreationTime.distinctFrom_of_not_mem ?_ thread.birth_lt
    intro hmem
    obtain ⟨declared, hdeclared, heq⟩ := List.mem_map.mp hmem
    obtain ⟨name, hname⟩ := Dict.mem_values.mp hdeclared
    exact hfresh.birth name declared hname heq

theorem restoreThreads_edits (additions : List Thread)
    (hgiven : ∀ thread ∈ additions, ∃ handed ∈ given, thread.DeclaredFrom origin handed)
    (hfresh : ∀ thread ∈ additions, document.Fresh thread)
    (hpairwise : additions.Pairwise fun thread other =>
      thread.name ≠ other.name ∧ thread.birth ≠ other.birth)
    (hok : additions.foldlM (restoreThread env source) document = .ok edited) :
    Edits given origin document edited := by
  induction additions generalizing document with
  | nil =>
    cases hok
    exact .refl
  | cons thread additions ih =>
    rw [List.foldlM_cons, bind_eq_ok] at hok
    obtain ⟨middle, hmiddle, hrest⟩ := hok
    obtain ⟨status, seen, rfl⟩ := restoreThread_eq hmiddle
    rw [List.pairwise_cons] at hpairwise
    refine .trans (.single (.declare (hfresh thread List.mem_cons_self)
      (hgiven thread List.mem_cons_self) status seen))
      (ih (fun other hother => hgiven other (List.mem_cons_of_mem _ hother))
        (fun other hother => ?_) hpairwise.2 hrest)
    exact (hfresh other (List.mem_cons_of_mem _ hother)).declare (hpairwise.1 other hother) _ _

theorem restoreStopped_edits {names restored : List Name}
    (hok : document.restoreStopped env source names = .ok (edited, restored)) :
    Edits (source.stopped names) document document edited := by
  obtain ⟨additions, written, hrestores, hwritten, rfl⟩ := restoreStopped_cases hok
  refine (restoreThreads_edits additions (fun thread hthread => ?_) hrestores.fresh
    hrestores.distinct hwritten).tail (.aliases _ _)
  obtain ⟨hname, saved, hsaved, hstopped⟩ := hrestores.saved thread hthread
  refine ⟨thread, ?_, (hrestores.fresh thread hthread).declaredFrom⟩
  refine List.mem_filterMap.mpr ⟨thread.name, hname, ?_⟩
  rw [hsaved, Option.bind_some, hstopped]
  rfl

theorem setParent_edits {parent : Option Name} {forks : List Thread}
    (hforks : ∀ child ∈ forks, document.threads.get? child.name = some child)
    (hnodup : (forks.map fun child => child.name).Nodup)
    (hok : forks.foldlM (setParent parent) document = .ok edited) :
    Edits given origin document edited := by
  induction forks generalizing document with
  | nil =>
    cases hok
    exact .refl
  | cons child forks ih =>
    rw [List.foldlM_cons, bind_eq_ok] at hok
    obtain ⟨middle, hmiddle, hrest⟩ := hok
    simp only [setParent, do_eq_ok] at hmiddle
    obtain ⟨forked, hforked, rfl⟩ := hmiddle
    rw [List.map_cons, List.nodup_cons] at hnodup
    have hrewrites : forked.Rewrites given origin child :=
      ⟨Thread.sameIdentity_of_make hforked rfl rfl, by rw [Thread.make_eq_ok.mp hforked],
        .inl (by rw [Thread.make_eq_ok.mp hforked])⟩
    refine (Edits.row .refl (hforks child List.mem_cons_self) hrewrites).trans
      (ih (fun other hother => ?_) hnodup.2 hrest)
    have hne : other.name ≠ forked.name := by
      rw [hrewrites.identity.1]
      exact fun heq => hnodup.1 (heq ▸ List.mem_map_of_mem hother)
    show (document.threads.set _ _).get? _ = _
    rw [Dict.get?_set_of_ne _ _ hne]
    exact hforks other (List.mem_cons_of_mem _ hother)

theorem children_nodup (hwf : document.WellFormed) (name : Name) :
    ((document.children name).map fun child => child.name).Nodup := by
  have hnames : (document.threads.values.map fun thread => thread.name).Nodup := by
    rw [Dict.nodup_map_values]
    intro key other thread thread' hget hget' heq
    exact (hwf.rowNames _ _ hget).symm.trans (heq.trans (hwf.rowNames _ _ hget'))
  exact hnames.sublist (List.filter_sublist.map _)

theorem removeThread_edits {detached : List Name} (hwf : document.WellFormed)
    (hok : document.removeThread env name = .ok (edited, detached))
    : Edits given origin document edited := by
  simp only [removeThread, do_eq_ok] at hok
  obtain ⟨thread, -, orphaned, horphaned, presence, -, rfl, -⟩ := hok
  have hrows : Edits given origin document orphaned :=
    setParent_edits (fun child hchild => get?_of_mem_children hwf.rowNames hchild)
      (children_nodup hwf thread.name) horphaned
  exact ((hrows.trans (orphaned.withdrawOwner_touches presence thread.name).edits).tail
    (.claim _ _)).tail (.remove _ _ _ _ _)

theorem removeOriginals_edits {originals : List Thread} (hwf : document.WellFormed)
    (hok : document.removeOriginals env originals = .ok edited) :
    Edits given origin document edited := by
  simp only [removeOriginals, bind_eq_ok] at hok
  obtain ⟨-, -, -, -, hok⟩ := hok
  have hrun := foldlM_invariant (fun middle => middle.WellFormed ∧ Edits given origin document middle)
    (fun original _ middle next hmiddle hnext => ?_) ⟨hwf, .refl⟩ hok
  · exact hrun.2
  · simp only [do_eq_ok, Prod.exists] at hnext
    obtain ⟨removed, detached, hremoved, rfl⟩ := hnext
    exact ⟨(removeThread_evolves hmiddle.1 hremoved).wellFormed,
      hmiddle.2.trans (removeThread_edits hmiddle.1 hremoved)⟩

end RegistryDocument

def RegistryOp.given : RegistryOp → List Thread
  | .register thread _ _ => [thread]
  | .declare thread _ => [thread]
  | .restoreStopped source names => source.stopped names
  | _ => []

def RegistryOp.leases : RegistryOp → Bool
  | .leaseTurn _ => true
  | _ => false

open RegistryDocument

/-- Every operation but a lease is a sequence of elementary edits. -/
theorem RegistryOp.perform_edits {edited : RegistryDocument} (hwf : document.WellFormed)
    (hop : op.2.leases = false) (hok : perform op document = .ok edited)
    : Edits op.2.given document document edited := by
  obtain ⟨env, op⟩ := op
  cases op with
  | register =>
    simp only [perform, bind_eq_ok] at hok
    obtain ⟨change, hchange, happly⟩ := hok
    exact apply_edits (prepared_of_prepareRegistration hwf hchange)
      (turnFrom_of_prepareRegistration
        (canonicalName_of_prepareRegistration hchange) rfl rfl rfl hchange) happly
  | declare =>
    simp only [perform, bind_eq_ok] at hok
    obtain ⟨change, hchange, happly⟩ := hok
    exact declare_edits hwf hchange happly
  | changeTag => exact changeTag_edits hwf hok
  | rename =>
    obtain ⟨⟨_, names⟩, hrename, rfl⟩ := map_eq_ok.mp hok
    rcases rename_cases hwf hrename with
      rfl | ⟨canonical, -, hnew, hrenames, hturns, -, howners, hclaims⟩
    · exact .refl
    · exact .single (.rename hrenames hturns hnew howners hclaims)
  | remove =>
    obtain ⟨⟨_, detached⟩, hremove, rfl⟩ := map_eq_ok.mp hok
    simp only [RegistryDocument.remove, bind_eq_ok] at hremove
    obtain ⟨-, -, -, -, hremoved⟩ := hremove
    exact removeThread_edits hwf hremoved
  | removeOriginals => exact removeOriginals_edits hwf hok
  | restoreStopped =>
    obtain ⟨⟨_, restored⟩, hrestore, rfl⟩ := map_eq_ok.mp hok
    exact restoreStopped_edits hrestore
  | leaseTurn => cases hop
  | _ => exact (perform_touches hwf rfl hok).edits

/-- An operation is a lease or a sequence of elementary edits. -/
theorem RegistryOp.perform_cases {edited : RegistryDocument} (hwf : document.WellFormed)
    (hok : perform op document = .ok edited) :
    Edits op.2.given document document edited ∨
      ∃ current leased, Leases document op.1 current leased edited := by
  cases hop : op.2.leases with
  | false => exact .inl (perform_edits hwf hop hok)
  | true =>
    obtain ⟨env, op⟩ := op
    cases op with
    | leaseTurn =>
      obtain ⟨⟨_, leased, owner⟩, hlease, rfl⟩ := map_eq_ok.mp hok
      obtain ⟨current, hleases⟩ := leaseTurn_leases hwf hlease
      exact .inr ⟨current, leased, hleases⟩
    | _ => cases hop

end AgentComms.Registry
