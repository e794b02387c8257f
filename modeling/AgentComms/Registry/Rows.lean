import AgentComms.Registry.Turns

/-!
# What writers leave in a declared row

A metadata writer holds a copy of a row that it read earlier. Registration
compares only the turn generations of the two rows, so a copy of the same
generation brings its own turn reference, which the save binds to the row's own turn;
`metadata_write_keeps_history_iff` says when the declared turn survives.

A row names its parent as a text. Renames and removals look for the canonical
name in that text, and a slice keeps the rows that the texts name, so a parent
stored under an alias escapes all three. `parent_links_resolve` is about runs that
store canonical names.
-/

namespace AgentComms.Registry

open Library

/-! ### Metadata writers -/

/-- The row keeps the turn, the creation time and the offered tools of the previous
one, and its channel scope moves with the tags. -/
structure Thread.KeepsHistory (row previous : Thread) : Prop where
  turn : row.turnGeneration = previous.turnGeneration ∧ row.turnRecord = previous.turnRecord
  createdAt : row.createdAt = previous.createdAt
  offered : row.offered = previous.offered ∧
    row.offeredBeforeRestart = previous.offeredBeforeRestart
  scope : row.channelScopeGeneration = if row.tags = previous.tags then
    previous.channelScopeGeneration else previous.channelScopeGeneration + 1

inductive MetadataWrite where
  | registration (newOwner : Bool)
  | declaration
deriving DecidableEq

namespace MetadataWrite

def prepare (write : MetadataWrite) (env : Environment) (document : RegistryDocument)
    (thread : Thread) (status : ThreadStatus) : Checked RegistrationChange :=
  match write with
  | registration newOwner => document.prepareRegistration env thread status newOwner
  | declaration => document.prepareDeclaration env thread status

/-- A copy of the declared generation carries the declared turn reference, or the row is
executing and so is the copy, or it is declared. -/
def CarriesTurn (write : MetadataWrite) (thread previous : Thread) : Prop :=
  thread.turnGeneration = previous.turnGeneration → thread.turnRecord = previous.turnRecord ∨
    previous.executing = true ∧ (thread.executing = true ∨ write = declaration)

variable {env : Environment} {document edited : RegistryDocument} {thread previous : Thread}
  {status : ThreadStatus} {change : RegistrationChange}

/-- The row of a registration over a declared one. -/
theorem thread_of_prepareRegistration {newOwner : Bool}
    (hget : document.threads.get? thread.name = some previous)
    (hok : document.prepareRegistration env thread status newOwner = .ok change) :
    thread.preserveRegistrationHistory previous = .ok change.thread ∧
      ∃ previousStatus, change.prior = .updated previous previousStatus newOwner := by
  simp only [RegistryDocument.prepareRegistration, do_eq_ok, hget] at hok
  obtain ⟨-, -, -, -, written, hwritten, previousStatus, -, rfl⟩ := hok
  exact ⟨hwritten, previousStatus, rfl⟩

/-- What a prepared write that starts no owner leaves of the writer's copy. -/
theorem thread_of_prepare {write : MetadataWrite}
    (hget : document.threads.get? previous.name = some previous)
    (hname : document.canonicalName thread.name = previous.name)
    (hok : write.prepare env document thread status = .ok change)
    (hsame : change.changesOwner = false) :
    change.thread.name = previous.name ∧ ∃ requested : Thread,
      requested.turnGeneration = thread.turnGeneration ∧
      requested.turnRecord = thread.turnRecord ∧ ∃ written,
        requested.preserveRegistrationHistory previous = .ok written ∧
        (change.thread = written ∧ ¬ (write = declaration ∧ previous.executing = true) ∨
          (write = declaration ∧ previous.executing = true) ∧
            change.thread.toThreadFields = { written.toThreadFields with
              processIdentity := previous.processIdentity
              turnRecord := previous.turnRecord
              turnGeneration := previous.turnGeneration }) := by
  cases write with
  | registration =>
    rw [RegistryDocument.canonicalName_of_prepareRegistration hok] at hname
    obtain ⟨hwritten, -⟩ := thread_of_prepareRegistration (hname ▸ hget) hok
    exact ⟨(Thread.preserveRegistrationHistory_identity hwritten).1.trans hname,
      thread, rfl, rfl, change.thread, hwritten, .inl ⟨rfl, nofun⟩⟩
  | declaration =>
    simp only [prepare, RegistryDocument.prepareDeclaration, bind_eq_ok, hname, hget] at hok
    obtain ⟨requested, hrequested, prepared, hprepared, hdeclared⟩ := hok
    obtain ⟨hcanonical, hgeneration, hrecord, -⟩ := RegistryDocument.forRegistration_turn hrequested
    obtain ⟨hwritten, previousStatus, hprior⟩ :=
      thread_of_prepareRegistration (hcanonical ▸ hget) hprepared
    have hwrittenName := (Thread.preserveRegistrationHistory_identity hwritten).1
    simp only [RegistrationChange.declared, hprior] at hdeclared
    split at hdeclared
    next hexecuting =>
      simp only [do_eq_ok, Thread.make_eq_ok] at hdeclared
      obtain ⟨-, -, -, -, row, hrow, rfl⟩ := hdeclared
      refine ⟨?_, requested, hgeneration, hrecord, prepared.thread, hwritten,
        .inr ⟨⟨rfl, hexecuting⟩, hrow⟩⟩
      rw [hrow]
      exact hwrittenName.trans hcanonical
    next hidle =>
      -- a declaration that restarts the owner is not one of these writes
      have hcases : change = prepared ∨ change = prepared.restarted := by
        cases hdeclared
        unfold RegistrationChange.overProcess
        split
        · split
          · exact .inr rfl
          · exact .inl rfl
        · exact .inl rfl
      have hrestarted : prepared.restarted.changesOwner = true := by
        simp [RegistrationChange.changesOwner, RegistrationChange.restarted, hprior]
      obtain rfl : change = prepared := hcases.resolve_right fun heq => by
        rw [heq, hrestarted] at hsame
        cases hsame
      exact ⟨hwrittenName.trans hcanonical, requested, hgeneration, hrecord, change.thread,
        hwritten, .inl ⟨rfl, fun hboth => hidle hboth.2⟩⟩

theorem get?_of_apply (happly : change.apply env document = .ok edited)
    (hsame : change.changesOwner = false) :
    edited.threads.get? change.thread.name = some change.thread := by
  simp only [RegistrationChange.apply, RegistrationChange.installedThread, hsame, do_eq_ok,
    Bool.false_eq_true, if_false, Except.ok.injEq, exists_eq_left'] at happly
  rw [← happly]
  exact Dict.get?_set_self _ _ _

end MetadataWrite

theorem Thread.bound_fields (thread : Thread) : thread.bound.toThreadFields =
    { thread.toThreadFields with
      turnRecord := if thread.executing = true
        then .stored thread.birth thread.turnGeneration else thread.turnRecord } := by
  unfold Thread.bound
  split <;> rfl

/-- A row that keeps the rest keeps its history once it is bound if it has the bound reference
of the previous row, or if both are executing: those have one turn. -/
theorem Thread.bound_keepsHistory_iff {row previous : Thread} (hbound : previous.bound = previous)
    (hturn : row.turnGeneration = previous.turnGeneration)
    (hcreated : row.createdAt = previous.createdAt)
    (hoffered : row.offered = previous.offered ∧
      row.offeredBeforeRestart = previous.offeredBeforeRestart)
    (hscope : row.channelScopeGeneration = if row.tags = previous.tags then
      previous.channelScopeGeneration else previous.channelScopeGeneration + 1) :
    row.bound.KeepsHistory previous ↔
      row.turnRecord = previous.turnRecord ∨ previous.executing = true ∧ row.executing = true := by
  have hprevious : previous.executing = true →
      previous.turnRecord = .stored previous.birth previous.turnGeneration := by
    intro hlive
    have hfields := previous.bound_fields
    rw [hbound, if_pos hlive] at hfields
    exact congrArg ThreadFields.turnRecord hfields
  have hrecord : row.bound.turnRecord = previous.turnRecord ↔ row.turnRecord = previous.turnRecord ∨
      previous.executing = true ∧ row.executing = true := by
    rw [row.bound_fields, Thread.birth, hcreated, hturn]
    by_cases hlive : row.executing = true
    · rw [if_pos hlive]
      refine ⟨fun hstored => .inr ⟨?_, hlive⟩, fun hkept => (hprevious ?_).symm⟩
      · rw [Thread.executing, ← hstored]
        rfl
      · rcases hkept with hsame | hboth
        · rwa [Thread.executing, hsame] at hlive
        · exact hboth.1
    · rw [if_neg hlive]
      exact ⟨.inl, fun hkept => hkept.resolve_right fun hboth => hlive hboth.2⟩
  rw [← hrecord]
  refine ⟨fun hkept => hkept.turn.2, fun hkept => ⟨⟨?_, hkept⟩, ?_, ?_, ?_⟩⟩ <;>
    simpa only [row.bound_fields]

open MetadataWrite in
theorem metadata_write_keeps_history_iff (write : MetadataWrite) (env : Environment)
    (document edited : RegistryDocument) (hbound : document.bound = document)
    (thread previous : Thread) (status : ThreadStatus) (change : RegistrationChange)
    (hget : document.threads.get? previous.name = some previous)
    (hname : document.canonicalName thread.name = previous.name)
    (hprepare : write.prepare env document thread status = .ok change)
    (hsame : change.changesOwner = false) (happly : change.apply env document = .ok edited) :
    (∃ row, edited.bound.threads.get? previous.name = some row ∧ row.KeepsHistory previous) ↔
      write.CarriesTurn thread previous := by
  have hsaved : previous.bound = previous := by
    have hread := congrArg (fun read => read.threads.get? previous.name) hbound
    simpa [RegistryDocument.bound, Dict.get?_mapValues, hget] using hread
  obtain ⟨hkept, requested, hgeneration, hrecord, written, hwritten, hrow⟩ :=
    thread_of_prepare hget hname hprepare hsame
  have hedited : edited.bound.threads.get? previous.name = some change.thread.bound := by
    rw [RegistryDocument.bound, Dict.get?_mapValues, ← hkept, get?_of_apply happly hsame]
    rfl
  have hfields := Thread.preserveRegistrationHistory_fields hwritten
  rw [hgeneration, hrecord] at hfields
  simp only [hedited, Option.some.injEq, exists_eq_left', CarriesTurn]
  rcases hrow with ⟨rfl, hidle⟩ | ⟨hexecuting, hrow⟩
  · rw [Thread.bound_keepsHistory_iff hsaved (by rw [hfields]) (by rw [hfields])
      ⟨by rw [hfields], by rw [hfields]⟩ (by simp only [hfields])]
    by_cases hturn : thread.turnGeneration = previous.turnGeneration
    · rw [Thread.executing, Thread.executing, hfields, if_pos hturn]
      tauto
    · exact iff_of_true (.inl (by rw [hfields, if_neg hturn])) fun h => absurd h hturn
  · refine iff_of_true ((Thread.bound_keepsHistory_iff hsaved (by rw [hrow]) ?_ ⟨?_, ?_⟩ ?_).mpr
      (.inl (by rw [hrow]))) fun _ => .inr ⟨hexecuting.2, .inr hexecuting.1⟩
    all_goals simp only [hrow, hfields]

def taggedThread : Thread := ⟨{ sampleFields with tags := {"team"} }, by decide⟩

/-- A declared row whose first turn is finished. -/
def finishedThread : Thread :=
  ⟨{ sampleFields with turnRecord := .finishedTurn "turn", turnGeneration := 1 }, by decide⟩

def executingThread : Thread :=
  ⟨{ sampleFields with turnRecord := .stored 1 1, turnGeneration := 1 }, by decide⟩

def finishedDocument : RegistryDocument :=
  RegistryDocument.empty.declare finishedThread .stopped 0

def finishedWrite (thread : Thread) : Checked RegistrationChange :=
  (MetadataWrite.registration false).prepare sampleEnvironment finishedDocument thread .stopped

theorem metadata_write_keeps_history_tagged :
    ∃ change edited, finishedWrite taggedThread = .ok change ∧ change.changesOwner = false ∧
      change.apply sampleEnvironment finishedDocument = .ok edited ∧
      ∃ row, edited.bound.threads.get? "alpha" = some row ∧ row.KeepsHistory finishedThread := by
  refine ⟨_, _, rfl, by decide +kernel, rfl, ?_⟩
  exact (metadata_write_keeps_history_iff (.registration false) sampleEnvironment finishedDocument
    _ rfl taggedThread finishedThread .stopped _ (by decide +kernel) (by decide +kernel) rfl
    (by decide +kernel) rfl).mpr fun hsame => absurd hsame (by decide)

/-- A writer that read the row during its last turn brings that turn back. -/
theorem stale_writer_revives_turn :
    ∃ change edited, finishedWrite executingThread = .ok change ∧ change.changesOwner = false ∧
      change.apply sampleEnvironment finishedDocument = .ok edited ∧
      (edited.bound.threads.get? "alpha").map (·.turnRecord) = some (.stored 1 1) :=
  ⟨_, _, rfl, by decide +kernel, rfl, by decide +kernel⟩

/-! ### Parents -/

namespace RegistrySnapshot

/-- The names that one presentation reads: the walk of `read_by` up the parents.
Every round takes one pending name, and a declared name adds one at most once. -/
def readByFrom (snapshot : RegistrySnapshot) : Nat → List Name → List Name → List Name
  | 0, _, seen => seen
  | _, [], seen => seen
  | fuel + 1, current :: pending, seen =>
    if current ∈ seen then snapshot.readByFrom fuel pending seen
    else snapshot.readByFrom fuel
      (((snapshot.threads.get? current).bind (·.parent)).toList ++ pending) (current :: seen)

def readBy (snapshot : RegistrySnapshot) (name : Name) : List Name :=
  snapshot.readByFrom (snapshot.threads.keys.length + 2) [snapshot.canonicalName name, name] []

def sliceRows {ν : Type} (rows : Dict Name ν) (kept : List Name) : Dict Name ν :=
  rows.filter fun name _ => name ∈ kept

/-- The slice's constructor checks its aliases again; births stay distinct in a part. -/
def only (snapshot : RegistrySnapshot) (names : List Name) : Checked RegistrySnapshot :=
  let kept := names.flatMap snapshot.readBy
  if haliases : ∀ entry ∈ (sliceRows snapshot.aliases kept).entries,
      entry.2 ∈ sliceRows snapshot.threads kept ∧ entry.1 ∉ sliceRows snapshot.threads kept then
    .ok {
      threads := sliceRows snapshot.threads kept
      statuses := sliceRows snapshot.statuses kept
      lastSeen := sliceRows snapshot.lastSeen kept
      aliases := sliceRows snapshot.aliases kept
      ownerGenerations := sliceRows snapshot.ownerGenerations kept
      claimedGenerations := sliceRows snapshot.claimedGenerations kept
      rowNames := fun entry hentry => snapshot.rowNames entry (List.mem_of_mem_filter hentry)
      aliasNames := haliases
      distinctBirths := snapshot.distinctBirths.sublist ((List.filter_sublist.map _).map _) }
  else .error (.relationViolation "Provenance alias has no exclusive retained owner")

end RegistrySnapshot

namespace RegistryDocument

variable {env : Environment} {document edited : RegistryDocument} {name : Name}
  {thread : Thread} {status : ThreadStatus} {change : RegistrationChange} {newOwner : Bool}

/-- Every stored parent is the canonical name of a declared thread. -/
def Parented (document : RegistryDocument) : Prop :=
  ∀ name thread, document.threads.get? name = some thread →
    ∀ parent, thread.parent = some parent → parent ∈ document.threads

theorem Parented.setThread {current written : Thread} (hparented : document.Parented)
    (hget : document.threads.get? current.name = some current)
    (hparent : written.parent = current.parent) : (document.setThread written).Parented := by
  intro other row hrow parent hnamed
  rw [RegistryDocument.setThread, Dict.mem_set]
  rcases Dict.get?_set_eq_some.mp hrow with ⟨-, rfl⟩ | ⟨-, hrow⟩
  · exact .inr (hparented _ current hget parent (hparent ▸ hnamed))
  · exact .inr (hparented other row hrow parent hnamed)

theorem Touches.parented (htouches : Touches document edited) (hparented : document.Parented) :
    edited.Parented := by
  induction htouches with
  | refl => exact hparented
  | tail _ htouch ih =>
    cases htouch with
    | row hget hretouches => exact ih.setThread hget hretouches.parent
    | status | seen | claim | owner => exact ih

theorem rename_parented {newName : Name} {names : Name × Name} (hwf : document.WellFormed)
    (hparented : document.Parented)
    (hok : document.rename env name newName = .ok (edited, names)) : edited.Parented := by
  rcases rename_cases hwf hok with rfl | ⟨canonical, hcanonical, -, hrenames, -, hparents, -⟩
  · exact hparented
  · intro other row hget parent hparent
    rw [hrenames.mem_threads hcanonical]
    rcases hparents other row hget with hnew | ⟨hne, former, before, hbefore, hsame⟩
    · exact .inl (Option.mem_unique hparent hnew)
    · exact .inr ⟨fun heq => hne (heq ▸ hparent),
        hparented former before hbefore parent (hsame ▸ hparent)⟩

theorem removeThread_parented {detached : List Name} (hwf : document.WellFormed)
    (hparented : document.Parented)
    (hok : document.removeThread env name = .ok (edited, detached)) : edited.Parented := by
  simp only [removeThread, do_eq_ok] at hok
  obtain ⟨removed, hremoved, orphaned, horphaned, presence, -, rfl, -⟩ := hok
  obtain ⟨hkeeps, -⟩ := setParent_frame (fun child hchild =>
    get?_of_mem_children hwf.rowNames hchild) horphaned
  have hcanonical := hwf.canonicalName_of_mem (Dict.mem_of_get? (hwf.mem_of_requireThread hremoved))
  intro other row hget parent hparent
  simp only [advanceClaim, withdrawOwner_threads, Dict.get?_erase, Dict.mem_erase] at hget ⊢
  split at hget
  · cases hget
  · rcases setParent_parents horphaned hget with hnone | ⟨hbefore, hothers⟩
    · rw [hnone] at hparent
      cases hparent
    · refine ⟨?_, (hkeeps.mem_threads parent).mpr (hparented other row hbefore parent hparent)⟩
      rintro rfl
      exact hothers row (mem_children hcanonical hbefore hparent) (hwf.rowNames _ _ hbefore)

theorem parent_of_prepareRegistration
    (hok : document.prepareRegistration env thread status newOwner = .ok change) :
    change.thread.parent = thread.parent := by
  simp only [prepareRegistration, bind_eq_ok] at hok
  obtain ⟨-, -, -, -, hok⟩ := hok
  split at hok
  · simp only [do_eq_ok] at hok
    obtain ⟨written, hwritten, -, -, rfl⟩ := hok
    rw [Thread.preserveRegistrationHistory_fields hwritten]
  · simp only [do_eq_ok, Thread.make_eq_ok] at hok
    obtain ⟨createdAt, -, written, hwritten, rfl⟩ := hok
    rw [hwritten]

theorem parent_of_prepareDeclaration
    (hok : document.prepareDeclaration env thread status = .ok change) :
    change.thread.parent = thread.parent := by
  simp only [prepareDeclaration, bind_eq_ok] at hok
  obtain ⟨requested, hrequested, prepared, hprepared, hdeclared⟩ := hok
  have hrequest : requested.parent = thread.parent := by
    unfold Thread.forRegistration at hrequested
    split at hrequested
    · rw [Thread.make_eq_ok.mp hrequested]
    · simp only [bind_eq_ok, Thread.make_eq_ok] at hrequested
      obtain ⟨role, -, hrow⟩ := hrequested
      rw [hrow]
  rw [← hrequest, ← parent_of_prepareRegistration hprepared]
  unfold RegistrationChange.declared at hdeclared
  split at hdeclared
  · cases hdeclared
    rfl
  · split at hdeclared
    · simp only [do_eq_ok, Thread.make_eq_ok] at hdeclared
      obtain ⟨-, -, -, -, row, hrow, rfl⟩ := hdeclared
      rw [hrow]
    · cases hdeclared
      unfold RegistrationChange.overProcess
      split
      · split <;> rfl
      · rfl

theorem apply_parented (hparented : document.Parented)
    (hparent : ∀ parent, change.thread.parent = some parent → parent ∈ document.threads)
    (hok : change.apply env document = .ok edited) : edited.Parented := by
  simp only [RegistrationChange.apply, do_eq_ok] at hok
  obtain ⟨installed, hinstalled, rfl⟩ := hok
  obtain ⟨-, hsame, -⟩ := installedThread_frame hinstalled
  have hthreads : ∀ edited : RegistryDocument,
      edited.threads = document.threads.set installed.name installed → edited.Parented := by
    intro edited hset other row hget parent hnamed
    rw [hset, Dict.mem_set]
    rw [hset] at hget
    rcases Dict.get?_set_eq_some.mp hget with ⟨-, rfl⟩ | ⟨-, hget⟩
    · exact .inr (hparent parent (hsame ▸ hnamed))
    · exact .inr (hparented other row hget parent hnamed)
  split <;> exact hthreads _ rfl

theorem changeTag_parented {originals : List Thread} {tag : String} {replacement : Option String}
    (hwf : document.WellFormed) (hparented : document.Parented)
    (hok : document.changeTag env originals tag replacement = .ok edited) : edited.Parented := by
  simp only [changeTag, bind_eq_ok] at hok
  obtain ⟨-, -, hok⟩ := hok
  refine (foldlM_invariant (fun middle => middle.WellFormed ∧ middle.Parented)
    (fun original _ middle next hmiddle hnext => ?_) ⟨hwf, hparented⟩ hok).2
  simp only [changeTagOf, bind_eq_ok, Thread.make_eq_ok] at hnext
  obtain ⟨current, hcurrent, retagged, hretagged, status, -, change, hchange, happly⟩ := hnext
  have hevolves : Evolves (fun _ => False) middle next :=
    apply_evolves hmiddle.1 (prepared_of_prepareRegistration hmiddle.1 hchange) happly
  refine ⟨hevolves.wellFormed, apply_parented hmiddle.2 (fun parent hparent => ?_) happly⟩
  rw [parent_of_prepareRegistration hchange, hretagged] at hparent
  exact hmiddle.2 _ current (hmiddle.1.mem_of_requireThread hcurrent) parent hparent

theorem restoreStopped_parented {source : RegistrySnapshot} {names restored : List Name}
    (hparented : document.Parented)
    (hparents : ∀ name ∈ names, name ∉ document.threads → ∀ saved ∈ source.threads.get? name,
      ∀ parent ∈ saved.parent, parent ∈ document.threads ∨ parent ∈ names)
    (hwf : document.WellFormed)
    (hok : document.restoreStopped env source names = .ok (edited, restored)) :
    edited.Parented := by
  obtain ⟨additions, written, hrestores, hwritten, rfl⟩ := restoreStopped_cases hok
  obtain ⟨-, -, hthreads⟩ : Evolves (fun _ => False) document written ∧ _ ∧ _ :=
    restoreThreads_evolves additions hwf hrestores.fresh hrestores.distinct hwritten
  have hrow : ∀ other, written.threads.get? other =
      ((additions.filter fun added => added.name = other).getLast?).or
        (document.threads.get? other) := by
    intro other
    rw [hthreads]
    refine (Dict.get?_foldl_set_last (fun added : Thread => added.name) id additions
      document.threads other).trans ?_
    rw [Option.map_id_fun, id]
  -- a parent that was declared or is added with its fork is declared now
  have hmem : ∀ parent, parent ∈ document.threads ∨ parent ∈ names → parent ∈ written.threads := by
    intro parent hparent
    have hdeclared : parent ∈ document.threads ∨ ∃ added ∈ additions, added.name = parent :=
      hparent.elim .inl (hrestores.selected parent)
    rw [Dict.mem_iff, ← Option.isSome_iff_exists, hrow, Option.isSome_or, Bool.or_eq_true,
      Option.isSome_iff_exists, Option.isSome_iff_exists, ← Dict.mem_iff]
    refine hdeclared.symm.imp_left fun ⟨added, hadded, hname⟩ => ?_
    have hkept : added ∈ additions.filter fun added => added.name = parent :=
      List.mem_filter.mpr ⟨hadded, decide_eq_true hname⟩
    exact ⟨_, List.getLast?_eq_some_getLast (List.ne_nil_of_mem hkept)⟩
  intro other row hget parent hparent
  change written.threads.get? other = some row at hget
  refine hmem parent ?_
  rw [hrow, Option.or_eq_some_iff] at hget
  rcases hget with hadded | ⟨-, hbefore⟩
  · have hadded := List.mem_of_mem_filter (List.mem_of_getLast? hadded)
    obtain ⟨hname, saved, hsaved, hstopped⟩ := hrestores.saved row hadded
    simp only [Thread.withoutProcess, Thread.withoutTurn, bind_eq_ok, Thread.make_eq_ok] at hstopped
    obtain ⟨idle, hidle, hstopped⟩ := hstopped
    rw [hstopped, hidle] at hparent
    exact hparents row.name hname (hrestores.fresh row hadded).name saved hsaved parent hparent
  · exact .inl (hparented other row hbefore parent hparent)

end RegistryDocument

namespace RegistryOp

open RegistryDocument

/-- A registered thread names a declared parent, and a restored one a declared parent
or one selected with it; an alias of a declared thread is not enough. -/
def NamesParent (document : RegistryDocument) (op : Environment × RegistryOp) : Prop :=
  match op.2 with
  | register thread _ _ | declare thread _ => ∀ parent ∈ thread.parent, parent ∈ document.threads
  | restoreStopped source names => ∀ name ∈ names, name ∉ document.threads →
      ∀ saved ∈ source.threads.get? name, ∀ parent ∈ saved.parent,
        parent ∈ document.threads ∨ parent ∈ names
  | _ => True

theorem perform_parented {op : Environment × RegistryOp} {document edited : RegistryDocument}
    (hwf : document.WellFormed) (hparented : document.Parented) (hnames : NamesParent document op)
    (hok : perform op document = .ok edited) : edited.Parented := by
  obtain ⟨env, op⟩ := op
  cases op with
  | register =>
    simp only [perform, bind_eq_ok] at hok
    obtain ⟨change, hchange, happly⟩ := hok
    exact apply_parented hparented (fun parent hparent => hnames parent
      (parent_of_prepareRegistration hchange ▸ hparent)) happly
  | declare =>
    simp only [perform, bind_eq_ok] at hok
    obtain ⟨change, hchange, happly⟩ := hok
    exact apply_parented hparented (fun parent hparent => hnames parent
      (parent_of_prepareDeclaration hchange ▸ hparent)) happly
  | changeTag => exact changeTag_parented hwf hparented hok
  | rename =>
    obtain ⟨⟨_, names⟩, hrename, rfl⟩ := map_eq_ok.mp hok
    exact rename_parented hwf hparented hrename
  | remove =>
    obtain ⟨⟨_, detached⟩, hremove, rfl⟩ := map_eq_ok.mp hok
    simp only [RegistryDocument.remove, bind_eq_ok] at hremove
    obtain ⟨-, -, -, -, hremoved⟩ := hremove
    exact removeThread_parented hwf hparented hremoved
  | removeOriginals =>
    simp only [perform, RegistryDocument.removeOriginals, bind_eq_ok] at hok
    obtain ⟨-, -, -, -, hok⟩ := hok
    refine (foldlM_invariant (fun middle => middle.WellFormed ∧ middle.Parented)
      (fun original _ middle next hmiddle hnext => ?_) ⟨hwf, hparented⟩ hok).2
    simp only [do_eq_ok, Prod.exists] at hnext
    obtain ⟨removed, detached, hremoved, rfl⟩ := hnext
    exact ⟨(removeThread_evolves hmiddle.1 hremoved).wellFormed,
      removeThread_parented hmiddle.1 hmiddle.2 hremoved⟩
  | restoreStopped =>
    obtain ⟨⟨_, restored⟩, hrestore, rfl⟩ := map_eq_ok.mp hok
    exact restoreStopped_parented hparented hnames hwf hrestore
  | leaseTurn =>
    obtain ⟨⟨_, leased⟩, hlease, rfl⟩ := map_eq_ok.mp hok
    simp only [RegistryDocument.leaseTurn, do_eq_ok, Thread.make_eq_ok] at hlease
    obtain ⟨current, hcurrent, -, -, -, -, -, -, -, -, -, -, -, -, -, -, row, hrow, -, -,
      rfl, -⟩ := hlease
    exact hparented.setThread (get?_of_requireActive hwf hcurrent) (by rw [hrow])
  | _ => exact (perform_touches hwf rfl hok).parented hparented

end RegistryOp

namespace RegistrySnapshot

variable {snapshot : RegistrySnapshot}

/-- Where stored parents are canonical the walk stays on declared names. -/
theorem readByFrom_declared (hparented : ∀ name thread, snapshot.threads.get? name = some thread →
      ∀ parent, thread.parent = some parent → parent ∈ snapshot.threads)
    (fuel : Nat) {pending seen : List Name} (hpending : ∀ name ∈ pending, name ∈ snapshot.threads)
    (hseen : ∀ name ∈ seen, name ∈ snapshot.threads) :
    ∀ name ∈ snapshot.readByFrom fuel pending seen, name ∈ snapshot.threads := by
  induction fuel generalizing pending seen with
  | zero => exact hseen
  | succ fuel ih =>
    cases pending with
    | nil => exact hseen
    | cons current =>
      obtain ⟨hcurrent, hrest⟩ := List.forall_mem_cons.mp hpending
      rw [readByFrom]
      split
      · exact ih hrest hseen
      · refine ih (List.forall_mem_append.mpr ⟨fun parent hmem => ?_, hrest⟩)
          (List.forall_mem_cons.mpr ⟨hcurrent, hseen⟩)
        rw [Option.mem_toList, Option.bind_eq_some_iff] at hmem
        obtain ⟨thread, hget, hparent⟩ := hmem
        exact hparented current thread hget parent hparent

/-- A slice of declared names holds no alias, so its constructor accepts it. -/
theorem only_ok (hparented : ∀ name thread, snapshot.threads.get? name = some thread →
      ∀ parent, thread.parent = some parent → parent ∈ snapshot.threads)
    {names : List Name} (hnames : ∀ name ∈ names, name ∈ snapshot.threads) :
    ∃ slice, snapshot.only names = .ok slice := by
  refine ⟨_, dif_pos fun entry hentry => ?_⟩
  obtain ⟨hstored, hkept⟩ := List.mem_filter.mp hentry
  obtain ⟨name, hname, hread⟩ := List.mem_flatMap.mp (of_decide_eq_true hkept)
  have hcanonical : snapshot.canonicalName name = name := by
    have hnone : snapshot.aliases.get? name = none := Dict.get?_eq_none_iff.mpr fun hformer => by
      obtain ⟨target, htarget⟩ := Dict.mem_iff.mp hformer
      exact (snapshot.aliasNames _ (Dict.mem_entries.mpr htarget)).2 (hnames name hname)
    rw [RegistryPresence.canonicalName, hnone, Option.getD_none]
  rw [readBy, hcanonical] at hread
  have hdeclared := readByFrom_declared hparented _
    (by simpa using hnames name hname) (by simp) entry.1 hread
  exact absurd hdeclared (snapshot.aliasNames entry hstored).2

end RegistrySnapshot

open RegistryOp (perform)

/-- Where every fork is stored under the canonical name of its parent, parents resolve in
every reached document and a slice of any declared names is built. -/
theorem parent_links_resolve (ops : List (Environment × RegistryOp))
    (halong : Along RegistryOp.NamesParent perform ops RegistryDocument.empty) :
    let document := run perform ops RegistryDocument.empty
    (∀ name thread parent, document.threads.get? name = some thread →
      thread.parent = some parent → ∃ owner, document.requireThread parent = .ok owner) ∧
    ∃ snapshot, document.capture = .ok snapshot ∧ ∀ names,
      (∀ name ∈ names, name ∈ document.threads) → ∃ slice, snapshot.only names = .ok slice := by
  intro document
  obtain ⟨hwf, hparented⟩ : document.WellFormed ∧ document.Parented :=
    run_invariant_along (fun document => document.WellFormed ∧ document.Parented)
      (fun op before after hbefore hnames hok =>
        ⟨(RegistryOp.perform_evolves hbefore.1 hok).wellFormed,
          RegistryOp.perform_parented hbefore.1 hbefore.2 hnames hok⟩)
      ops ⟨RegistryDocument.wellFormed_empty, fun _ _ hget => by cases hget⟩ halong
  obtain ⟨snapshot, hcapture, hsame, -⟩ := hwf.capture_ok
  refine ⟨fun name thread parent hget hparent => ?_, snapshot, hcapture, fun names hnames => ?_⟩
  · have hmem := hparented name thread hget parent hparent
    obtain ⟨owner, howner⟩ := Dict.mem_iff.mp hmem
    refine ⟨owner, orRefuse_eq_ok.mpr ?_⟩
    rwa [hwf.canonicalName_of_mem hmem]
  · rw [← hsame] at hnames
    refine RegistrySnapshot.only_ok ?_ hnames
    rw [hsame]
    exact hparented

def forkThread : Thread :=
  ⟨{ sampleFields with name := "fork", createdAt := .recorded 2, parent := some "alpha" },
    by decide⟩

def renameAlpha : Environment × RegistryOp := (sampleEnvironment, .rename "alpha" "beta")

def forkedRun : List (Environment × RegistryOp) :=
  [(sampleEnvironment, .register sampleThread .process false),
    (sampleEnvironment, .register forkThread .process false), renameAlpha]

theorem parent_links_resolve_renamed :
    Along RegistryOp.NamesParent perform forkedRun RegistryDocument.empty ∧
    ((run perform forkedRun .empty).threads.get? "fork").bind (·.parent) =
      some "beta" ∧
    ∃ owner, (run perform forkedRun .empty).requireThread "beta" = .ok owner := by
  have halong : Along RegistryOp.NamesParent perform forkedRun
      RegistryDocument.empty := by
    refine ⟨nofun, ?_, trivial, trivial⟩
    rintro parent ⟨⟩
    decide +kernel
  have hparent : ((run perform forkedRun .empty).threads.get? "fork").bind
      (·.parent) = some "beta" := by decide +kernel
  obtain ⟨thread, hthread, hnamed⟩ := Option.bind_eq_some_iff.mp hparent
  exact ⟨halong, hparent, (parent_links_resolve forkedRun halong).1 _ _ _ hthread hnamed⟩

/-- A fork registered under the former name of its parent: no slice of it can be built, and
once the parent is removed its parent resolves to nothing. -/
theorem alias_parent_dangles :
    let renamed := run perform
      [(sampleEnvironment, .register sampleThread .process false), renameAlpha] .empty
    let forked := run perform
      [(sampleEnvironment, .register forkThread .process false)] renamed
    let removed := run perform [(sampleEnvironment, .remove "beta")] forked
    renamed.canonicalName "alpha" ∈ renamed.threads ∧ "fork" ∈ forked.threads ∧
    (forked.capture.bind (·.only ["fork"])).isOk = false ∧
    (removed.threads.get? "fork").bind (·.parent) = some "alpha" ∧
    (removed.requireThread "alpha").isOk = false := by
  decide +kernel

end AgentComms.Registry
