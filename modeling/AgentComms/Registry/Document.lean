import AgentComms.Registry.Threads

/-!
# The registry document and its operations

`RegistryDocument` (`registry/registry_document.py`) keeps parallel maps by
thread name: declarations, statuses, presence, aliases, and two generation
counters. Each operation below follows the source statement by statement and
returns the edited document, or the refusal that leaves the stored document as
it was. `RegistryPresence` holds the maps and the reads that a document shares
with the detached `RegistrySnapshot`.

The documents' `version`, `purpose` and `team_project` are not read by any
operation here. A turn file written beside the document (`without_claim`,
`StoredTurnRecord.begin`) is outside it.
-/

namespace AgentComms.Registry

open Library

/-! ### Generation counters -/

/-- One monotonic allocation domain, including deleted-name tombstones: every
allocated generation is positive and at most the counter. -/
structure GenerationCounter where
  counter : Nat
  generations : Dict Name Nat
  bounded : ∀ entry ∈ generations.entries, 0 < entry.2 ∧ entry.2 ≤ counter

namespace GenerationCounter

def empty : GenerationCounter := ⟨0, Dict.empty, by simp [Dict.empty]⟩

theorem get?_bounded (counter : GenerationCounter) {name : Name} {generation : Nat}
    (hget : counter.generations.get? name = some generation) :
    0 < generation ∧ generation ≤ counter.counter :=
  counter.bounded (name, generation) (Dict.mem_entries.mpr hget)

def make (counter : Nat) (generations : Dict Name Nat) : Checked GenerationCounter :=
  if hbounded : ∀ entry ∈ generations.entries, 0 < entry.2 ∧ entry.2 ≤ counter then
    .ok ⟨counter, generations, hbounded⟩
  else .error (.valueError "invalid registry generation counter")

def advance (counter : GenerationCounter) (name : Name) : GenerationCounter where
  counter := counter.counter + 1
  generations := counter.generations.set name (counter.counter + 1)
  bounded := by
    rintro ⟨other, generation⟩ hentry
    rcases Dict.get?_set_eq_some.mp (Dict.mem_entries.mp hentry) with ⟨-, rfl⟩ | ⟨-, hentry⟩
    · exact ⟨Nat.succ_pos _, le_rfl⟩
    · have hold := counter.get?_bounded hentry
      exact ⟨hold.1, Nat.le_succ_of_le hold.2⟩

/-- `generations[new] = generations.pop(old)`. -/
def rename (counter : GenerationCounter) (old new : Name) : Checked GenerationCounter :=
  match hold : counter.generations.get? old with
  | none => .error (.keyError old)
  | some generation => .ok {
      counter := counter.counter
      generations := (counter.generations.erase old).set new generation
      bounded := by
        rintro ⟨other, value⟩ hentry
        rw [Dict.mem_entries, Dict.get?_set_eq_some, Dict.get?_erase_eq_some] at hentry
        rcases hentry with ⟨-, rfl⟩ | ⟨-, -, hentry⟩
        · exact counter.get?_bounded hold
        · exact counter.get?_bounded hentry }

@[simp] theorem mem_advance {counter : GenerationCounter} {name other : Name} :
    other ∈ (counter.advance name).generations ↔ other = name ∨ other ∈ counter.generations := by
  simp [advance]

theorem rename_eq_ok {counter renamed : GenerationCounter} {old new : Name}
    (hok : counter.rename old new = .ok renamed) :
    old ∈ counter.generations ∧
      ∀ other, other ∈ renamed.generations ↔
        other = new ∨ (other ≠ old ∧ other ∈ counter.generations) := by
  unfold rename at hok
  split at hok
  · cases hok
  · rename_i generation hget
    cases hok
    exact ⟨Dict.mem_of_get? hget, fun other => by simp⟩

end GenerationCounter

/-! ### Reads shared by the document and its snapshot -/

structure RegistryPresence where
  threads : Dict Name Thread
  statuses : Dict Name ThreadStatus
  lastSeen : Dict Name Time
  aliases : Dict Name Name

namespace RegistryPresence

variable (names : RegistryPresence)

/-- Resolve a name without requiring current membership. -/
def canonicalName (name : Name) : Name :=
  (names.aliases.get? name).getD name

def taken (name owner : Name) : Bool :=
  (name ∈ names.threads ∨ name ∈ names.aliases) ∧ names.canonicalName name ≠ owner

def requireThread (name : Name) : Checked Thread :=
  orRefuse (names.threads.get? (names.canonicalName name))
    (.unregisteredThread ("Thread " ++ quoted (names.canonicalName name) ++
      " is not registered."))

def namesFor (name : Name) : List Name :=
  names.canonicalName name ::
    (names.aliases.filter fun _ target => target = names.canonicalName name).keys

def children (name : Name) : List Thread :=
  names.threads.values.filter fun thread => thread.parent = some (names.canonicalName name)

def births : List Nat := names.threads.values.map Thread.birth

def status (env : Environment) (name : Name) : Checked ThreadStatus := do
  let thread ← names.requireThread name
  let stored ← orRefuse (names.statuses.get? thread.name) (.keyError thread.name)
  let seen ← orRefuse (names.lastSeen.get? thread.name) (.keyError thread.name)
  pure (stored.registered env thread seen)

def requireActive (names : RegistryPresence) (env : Environment) (name : Name) :
    Checked Thread := do
  let thread ← orRefuse (names.threads.get? (names.canonicalName name))
    (.relationViolation "live owner is stopped or unavailable")
  let status ← names.status env thread.name
  status.requireActive
  pure thread

def current (original : Thread) : Bool :=
  match names.threads.get? (names.canonicalName original.name) with
  | some thread => thread.birth = original.birth
  | none => false

end RegistryPresence

/-- A registry cut detached from its document. Its constructor checks that every
alias resolves to one declared thread and that births are distinct; rows were
checked against their names when they entered. -/
structure RegistrySnapshot extends RegistryPresence where
  ownerGenerations : Dict Name Nat
  claimedGenerations : Dict Name Nat
  rowNames : ∀ entry ∈ threads.entries, entry.2.name = entry.1
  aliasNames : ∀ entry ∈ aliases.entries, entry.2 ∈ threads ∧ entry.1 ∉ threads
  distinctBirths : (threads.values.map Thread.birth).Nodup

namespace RegistrySnapshot

/-- A name resolves to a declared thread or to the record of a deleted one. -/
inductive Participant where
  | thread (thread : Thread)
  | deletedThread (name : Name)
deriving DecidableEq

variable (snapshot : RegistrySnapshot)

/-- Removal keeps the name's generations; they are the deletion record. -/
def retired (name : Name) : Bool :=
  name ∈ snapshot.claimedGenerations ∧ name ∉ snapshot.threads

def participant (name : Name) : Checked Participant :=
  match snapshot.threads.get? (snapshot.canonicalName name) with
  | some thread => .ok (.thread thread)
  | none =>
    if snapshot.retired (snapshot.canonicalName name) then
      .ok (.deletedThread (snapshot.canonicalName name))
    else .error (.unregisteredThread ("Thread " ++
      quoted (snapshot.canonicalName name) ++ " was never registered."))

def matching (snapshot : RegistrySnapshot) (available : Dict Name Thread) (name : Name) : Bool :=
  match snapshot.threads.get? name, available.get? name with
  | some thread, some other => thread.birth = other.birth
  | _, _ => false

/-- The aliases of matching incarnations whose text is not occupied. -/
def restorableAliases (available : Dict Name Thread) (retained : Dict Name Name) : Dict Name Name :=
  snapshot.aliases.filter fun former target =>
    decide (former ∉ available) && decide (former ∉ retained) &&
      snapshot.matching available target

def threadsFor (name : Name) (birth : Nat) : List Thread :=
  match snapshot.threads.get? (snapshot.canonicalName name) with
  | some thread => if thread.birth = birth then [thread] else []
  | none => []

/-- The allocated input generation follows the alias lineage. -/
def claimGeneration (name : Name) : Checked Nat :=
  orRefuse (snapshot.claimedGenerations.get? (snapshot.canonicalName name))
    (.keyError (snapshot.canonicalName name))

end RegistrySnapshot

/-! ### The document -/

structure RegistryDocument extends RegistryPresence where
  owners : GenerationCounter
  claims : GenerationCounter

namespace RegistryDocument

def empty : RegistryDocument where
  threads := Dict.empty
  statuses := Dict.empty
  lastSeen := Dict.empty
  aliases := Dict.empty
  owners := GenerationCounter.empty
  claims := GenerationCounter.empty

variable (document : RegistryDocument)

def capture : Checked RegistrySnapshot :=
  if hrows : ∀ entry ∈ document.threads.entries, entry.2.name = entry.1 then
    if haliases : ∀ entry ∈ document.aliases.entries,
        entry.2 ∈ document.threads ∧ entry.1 ∉ document.threads then
      if hbirths : (document.threads.values.map Thread.birth).Nodup then
        .ok { document.toRegistryPresence with
          ownerGenerations := document.owners.generations
          claimedGenerations := document.claims.generations
          rowNames := hrows
          aliasNames := haliases
          distinctBirths := hbirths }
      else .error (.relationViolation "Registry creation identities collide.")
    else .error (.relationViolation "Provenance alias has no exclusive retained owner")
  else .error (.malformedRecord "thread name differs from its declaration")

def setThread (thread : Thread) : RegistryDocument :=
  { document with threads := document.threads.set thread.name thread }

def setStatus (name : Name) (status : ThreadStatus) : RegistryDocument :=
  { document with statuses := document.statuses.set name status.declaration }

def setSeen (name : Name) (time : Time) : RegistryDocument :=
  { document with lastSeen := document.lastSeen.set name time }

def advanceClaim (name : Name) : RegistryDocument :=
  { document with claims := document.claims.advance name }

def advanceOwner (name : Name) : RegistryDocument :=
  { document with owners := document.owners.advance name }

/-- Only an active presence held an owner. -/
def withdrawOwner (status : ThreadStatus) (name : Name) : RegistryDocument :=
  if status.active then document.advanceOwner name else document

end RegistryDocument

/-! ### Registration changes (`registration_change.py`) -/

/-- What a registration replaces: nothing, or the previous declaration with the
status it had; `restart` forces a new owner. -/
inductive PriorOwner where
  | initial (restart : Bool)
  | updated (previous : Thread) (previousStatus : ThreadStatus) (restart : Bool)

structure RegistrationChange where
  prior : PriorOwner
  thread : Thread
  status : ThreadStatus

namespace RegistrationChange

def changesOwner (change : RegistrationChange) : Bool :=
  match change.prior with
  | .initial _ => true
  | .updated previous previousStatus restart =>
    restart || previous.processIdentity ≠ change.thread.processIdentity ||
      previous.execution ≠ change.thread.execution || previous.role ≠ change.thread.role ||
      previousStatus.changesOwner change.status

variable (change : RegistrationChange)

def restarted : RegistrationChange :=
  { change with prior := match change.prior with
      | .initial _ => .initial true
      | .updated previous previousStatus _ => .updated previous previousStatus true }

/-- `ProcessState.registration_change`: a process over a recorded process is a
restart when the declaration is another incarnation. -/
def overProcess (requested previous : Thread) : RegistrationChange :=
  match requested.processIdentity, previous.processIdentity with
  | .process _ _, .process _ _ =>
    if requested.birth ≠ previous.birth then change.restarted else change
  | _, _ => change

/-- Decide whether to keep or claim execution against the locked prior owner. -/
def declared (requested : Thread) : Checked RegistrationChange :=
  match change.prior with
  | .initial _ => .ok change
  | .updated previous _ _ =>
    if previous.executing then do
      require (requested.execution = previous.execution)
        (.relationViolation "Cannot replace receiving capability during its active turn.")
      require (requested.processIdentity.conflictsWith previous.processIdentity = false)
        (.relationViolation "Cannot replace an executor during its active turn.")
      let thread ← Thread.make { change.thread.toThreadFields with
        processIdentity := previous.processIdentity
        turnRecord := previous.turnRecord
        turnGeneration := previous.turnGeneration }
      pure { change with thread := thread }
    else .ok (change.overProcess requested previous)

/-- The row a change installs: a new owner starts with unobserved tools. -/
def installedThread : Checked Thread :=
  if change.changesOwner then change.thread.restartedTools else .ok change.thread

def apply (env : Environment) (change : RegistrationChange) (document : RegistryDocument) :
    Checked RegistryDocument := do
  let thread ← change.installedThread
  let installed := ((document.setThread thread).setStatus thread.name change.status).setSeen
    thread.name env.now
  pure (if change.changesOwner then
    (installed.advanceClaim thread.name).advanceOwner thread.name else installed)

end RegistrationChange

namespace RegistryDocument

variable (env : Environment) (document : RegistryDocument)

/-! ### Registration, restoration and rename -/

/-- A declared name may be registered again unless it is being deleted. -/
def requireMutable (name : Name) : Checked Unit :=
  if name ∈ document.statuses then do
    let current ← document.status env name
    current.requireMutable name
  else pure ()

def prepareRegistration (thread : Thread) (status : ThreadStatus) (newOwner : Bool) :
    Checked RegistrationChange := do
  let status := thread.registeredStatus env status
  require (thread.name ∉ document.aliases)
    (.relationViolation ("Thread name " ++ quoted thread.name ++
      " is a permanent alias and cannot be reused."))
  document.requireMutable env thread.name
  match document.threads.get? thread.name with
  | some previous =>
    let thread ← thread.preserveRegistrationHistory previous
    let previousStatus ← document.status env thread.name
    pure ⟨.updated previous previousStatus newOwner, thread, status⟩
  | none =>
    let createdAt ← thread.createdAt.distinctFrom document.births
    let thread ← Thread.make { thread.toThreadFields with createdAt := createdAt }
    pure ⟨.initial newOwner, thread, status⟩

def prepareDeclaration (thread : Thread) (status : ThreadStatus) : Checked RegistrationChange := do
  let canonical := document.canonicalName thread.name
  let requested ← thread.forRegistration canonical (document.threads.get? canonical)
  let change ← document.prepareRegistration env requested status false
  change.declared requested

/-- The identity checks of `restore_stopped`, accumulating the missing
declarations and the births they take. -/
def restoreAdditions (source : RegistrySnapshot) : List Name → List Nat → Checked (List Thread)
  | [], _ => .ok []
  | name :: names, births => do
      let thread ← orRefuse (source.threads.get? name) (.keyError name)
      match document.threads.get? name with
      | some existing => do
          require (existing.birth = thread.birth)
            (.relationViolation ("Restoration identity conflicts for " ++ quoted name))
          restoreAdditions source names births
      | none => do
          require (name ∉ document.aliases ∧ thread.birth ∉ births)
            (.relationViolation ("Restoration identity conflicts for " ++ quoted name))
          let stopped ← thread.withoutProcess
          let rest ← restoreAdditions source names (thread.birth :: births)
          pure (stopped :: rest)

def restoreThread (source : RegistrySnapshot) (document : RegistryDocument) (thread : Thread) :
    Checked RegistryDocument := do
  let status ← source.status env thread.name
  let owner ← source.requireThread thread.name
  let seen ← orRefuse (source.lastSeen.get? owner.name) (.keyError owner.name)
  pure ((((document.setThread thread).setStatus thread.name status.restored).setSeen
    thread.name seen).advanceClaim thread.name |>.advanceOwner thread.name)

/-- Restore selected missing identities without importing execution authority. -/
def restoreStopped (source : RegistrySnapshot) (names : List Name) :
    Checked (RegistryDocument × List Name) := do
  let selected := (Dict.fromKeys names).keys
  let additions ← document.restoreAdditions source selected document.births
  let restored := additions.map fun thread => thread.name
  let available := additions.foldl (fun rows thread => rows.set thread.name thread)
    document.threads
  let aliases := source.restorableAliases available document.aliases
  let written ← additions.foldlM (restoreThread env source) document
  pure ({ written with aliases := written.aliases.update aliases }, restored)

def retarget (canonical newName : Name) (target : Name) : Name :=
  if target = canonical then newName else target

def setParent (parent : Option Name) (document : RegistryDocument) (child : Thread) :
    Checked RegistryDocument := do
  let forked ← Thread.make { child.toThreadFields with parent := parent }
  pure (document.setThread forked)

/-- Rename one running thread while retaining old names as aliases. -/
def rename (name newName : Name) : Checked (RegistryDocument × Name × Name) := do
  let canonical := document.canonicalName name
  let current ← orRefuse (document.threads.get? canonical)
    (.unregisteredThread ("Thread " ++ quoted name ++ " is not registered."))
  if newName = canonical then
    pure (document, canonical, canonical)
  else do
    let presence ← document.status env canonical
    presence.requireSelfRename
    require (document.taken newName canonical = false)
      (.relationViolation ("Thread name " ++ quoted newName ++ " is already in use."))
    let replacement ← Thread.make { current.toThreadFields with name := newName }
    -- free for this thread: one of its own aliases
    let aliases := document.aliases.erase newName
    let status ← orRefuse (document.statuses.get? canonical) (.keyError canonical)
    let seen ← orRefuse (document.lastSeen.get? canonical) (.keyError canonical)
    let moved : RegistryDocument := { document with
      threads := (document.threads.erase canonical).set newName replacement
      statuses := (document.statuses.erase canonical).set newName status.declaration
      lastSeen := (document.lastSeen.erase canonical).set newName seen
      aliases := aliases }
    let reparented ← (moved.children canonical).foldlM (setParent (some newName)) moved
    let claims ← reparented.claims.rename canonical newName
    let owners ← reparented.owners.rename canonical newName
    pure ({ reparented with
      aliases := (aliases.mapValues fun _ target => retarget canonical newName target).set
        canonical newName
      claims := claims
      owners := owners }, canonical, newName)

/-! ### Withdrawal, deletion and presence -/

/-- Atomically deny new turns for exactly one idle or wedged owner. -/
def fenceRestartOwner (expected : Thread) (expectedClaimedGeneration : Nat) :
    Checked (RegistryDocument × Nat) := do
  let current ← document.requireActive env expected.name
  let turn ← env.read current.turnRecord
  require (∀ active ∈ turn,
      10 * 60 * 1000000 ≤ env.now - max (env.lastWritten current.name) active.startedAt)
    .ownerBusy
  require (current = expected) .ownerChangedBeforeFence
  let generation ← orRefuse (document.claims.generations.get? current.name)
    (.keyError current.name)
  require (generation = expectedClaimedGeneration) .ownerGenerationChanged
  let fenced := ((document.setStatus expected.name
    (expected.registeredStatus env .stopping)).advanceClaim expected.name).advanceOwner
      expected.name
  let idle ← current.withoutTurn
  let stored := fenced.setThread idle
  let claimed ← orRefuse (stored.claims.generations.get? expected.name)
    (.keyError expected.name)
  pure (stored, claimed)

def withdraw (name : Name) (status : ThreadStatus) : Checked (RegistryDocument × Thread) := do
  let thread ← document.requireThread name
  let presence ← document.status env thread.name
  presence.requireMutable thread.name
  let withdrawn := ((document.withdrawOwner presence thread.name).setStatus thread.name
    (thread.registeredStatus env status)).advanceClaim thread.name
  let idle ← thread.withoutTurn
  pure (withdrawn.setThread idle, idle)

/-- Stopped; the execution decides whether the row keeps its process binding. -/
def unregister (name : Name) : Checked RegistryDocument := do
  let (withdrawn, thread) ← document.withdraw env name .stopped
  let released ← thread.withdrawn
  pure (withdrawn.setThread released)

/-- Refuse new work while the host completes the session; the binding stays. -/
def fenceOwner (name : Name) : Checked RegistryDocument := do
  let (withdrawn, _) ← document.withdraw env name .stopping
  pure withdrawn

def archive (name : Name) : Checked RegistryDocument := do
  let thread ← document.requireThread name
  let presence ← document.status env thread.name
  presence.requireMutable thread.name
  pure (((document.withdrawOwner presence thread.name).setStatus thread.name
    .archived).advanceClaim thread.name)

def requireOriginals (originals : List Thread) : Checked Unit :=
  require (∀ original ∈ originals, document.current original)
    (.relationViolation "Tagged thread incarnation changed before removal.")

/-- One cohort member's tags with `tag` replaced. -/
def changeTagOf (tag : String) (replacement : Option String) (document : RegistryDocument)
    (original : Thread) : Checked RegistryDocument := do
  let current ← document.requireThread original.name
  let tags := current.tags.erase tag ∪ (replacement.toList.filter (· ≠ "")).toFinset
  let retagged ← Thread.make { current.toThreadFields with tags := tags }
  let status ← document.status env current.name
  let change ← document.prepareRegistration env retagged status false
  change.apply env document

/-- Change one cohort's tags on current records, retaining owner state. -/
def changeTag (originals : List Thread) (tag : String) (replacement : Option String) :
    Checked RegistryDocument := do
  document.requireOriginals originals
  originals.foldlM (changeTagOf env tag replacement) document

def beginDelete (name : Name) : Checked RegistryDocument := do
  let thread ← document.requireThread name
  let presence ← document.status env thread.name
  let doomed ← presence.forDeletion
  pure ((document.setStatus thread.name doomed).advanceClaim thread.name)

/-- Remove a declaration and atomically detach its surviving children. -/
def removeThread (name : Name) : Checked (RegistryDocument × List Name) := do
  let thread ← document.requireThread name
  let forks := document.children thread.name
  let detached ← forks.foldlM (setParent none) document
  let presence ← detached.status env thread.name
  let withdrawn := (detached.withdrawOwner presence thread.name).advanceClaim thread.name
  pure ({ withdrawn with
    threads := withdrawn.threads.erase thread.name
    statuses := withdrawn.statuses.erase thread.name
    lastSeen := withdrawn.lastSeen.erase thread.name
    aliases := withdrawn.aliases.filter fun _ target => target ≠ thread.name },
    (forks.map fun child => child.name).mergeSort)

/-- Withdraw a mutable declaration; an in-progress deletion owns its completion. -/
def remove (name : Name) : Checked (RegistryDocument × List Name) := do
  let presence ← document.status env name
  presence.requireMutable name
  document.removeThread env name

/-- Remove deleting declarations; generations stay as the record. -/
def removeOriginals (originals : List Thread) : Checked RegistryDocument := do
  document.requireOriginals originals
  originals.forM fun original => do
    let presence ← document.status env original.name
    presence.requireDeleting
  originals.foldlM (fun document original => do
    let (removed, _) ← document.removeThread env original.name
    pure removed) document

def heartbeat (name : Name) : Checked RegistryDocument := do
  let thread ← document.requireThread name
  let previous ← document.status env thread.name
  let resumed ← previous.afterHeartbeat thread.name
  let owned := if previous.changesOwner resumed then
    (document.advanceClaim thread.name).advanceOwner thread.name else document
  pure ((owned.setStatus thread.name resumed).setSeen thread.name env.now)

end RegistryDocument

/-! ### Turn leases -/

/-- An exact local begin-turn lease and its original record. -/
structure TurnLeaseFence where
  name : Name
  birth : Nat
  generation : Nat
  turnId : String
  claimedGeneration : Nat
deriving DecidableEq

def ActiveTurn.current (turn : ActiveTurn) (claimedGeneration turnGeneration : Nat) : Bool :=
  turn.claimedGeneration = some claimedGeneration ∧ turn.turnGeneration = some turnGeneration ∧
    0 < turnGeneration

def ActiveTurn.heldBy (turn : ActiveTurn) (lease : TurnLeaseFence) : Bool :=
  turn.id = lease.turnId && turn.current lease.claimedGeneration lease.generation

/-- A released claim is adopted by the lease. -/
def ActiveTurn.mayRelease (turn : ActiveTurn) (lease : TurnLeaseFence) : Bool :=
  { turn with claimedGeneration := some (turn.claimedGeneration.getD lease.claimedGeneration)
    }.heldBy lease

def TurnLeaseFence.canAttest (lease : TurnLeaseFence) (claimScope : Nat) : Bool :=
  0 < lease.generation ∧ 0 < lease.claimedGeneration ∧ lease.claimedGeneration = claimScope

namespace RegistryDocument

variable (env : Environment) (document : RegistryDocument)

/-- `lease_local_turn` and `RegistryEdit.lease_turn`: allocate the next turn
generation of the local native owner. -/
def leaseTurn (name : Name) : Checked (RegistryDocument × Thread × Nat) := do
  let current ← document.requireActive env name
  require (current.execution = .native) (.relationViolation
    "This participant checks its CLI inbox; it has no native prompt transport.")
  require current.role.executable
    (.relationViolation "A human thread owns no local process")
  require (current.processIdentity = env.currentProcess)
    (.relationViolation "live owner is not the current process incarnation")
  let turn ← env.read current.turnRecord
  require (turn = none) (.relationViolation "live owner already has an active turn")
  require (current.turnGeneration < 2 ^ 63 - 1)
    (.relationViolation "Turn generation exhausted")
  require (current.processIdentity ≠ .noProcess)
    (.relationViolation ("Thread " ++ quoted current.name ++ " has no owner process"))
  let leased ← Thread.make { current.toThreadFields with
    turnGeneration := current.turnGeneration + 1
    projectResumeDue := false
    turnRecord := .stored current.birth (current.turnGeneration + 1) }
  let owner ← orRefuse (document.owners.generations.get? current.name)
    (.keyError current.name)
  pure ((document.setThread leased).setSeen current.name env.now, leased, owner)

/-- The finished lease, when the input grant still attests it and its owner is
active. -/
def completedTurn (lease : TurnLeaseFence) (turn : ActiveTurn) (claimed : Nat) (name : Name) :
    Checked (Option TurnLeaseFence) :=
  if lease.canAttest claimed && turn.heldBy lease then do
    let presence ← document.status env name
    pure (if presence.active then some { lease with name := name } else none)
  else .ok none

/-- Release only this exact lease; a revoked input grant cannot confirm
completion. The answer says whether the lease was released. -/
def releaseTurn (lease : TurnLeaseFence) :
    Checked (RegistryDocument × Bool × Option TurnLeaseFence) :=
  match document.threads.get? (document.canonicalName lease.name) with
  | none => .ok (document, false, none)
  | some current =>
    if current.turnRecord ≠ .stored lease.birth lease.generation ∨
        current.birth ≠ lease.birth ∨ current.turnGeneration ≠ lease.generation then
      .ok (document, false, none)
    else do
      let read ← env.read current.turnRecord
      let turn ← orRefuse read (.relationViolation "registry owner has no active turn")
      if turn.mayRelease lease = false then
        pure (document, false, none)
      else do
        let name := document.canonicalName lease.name
        let claimed ← orRefuse (document.claims.generations.get? name) (.keyError name)
        let completion ← document.completedTurn env lease turn claimed name
        let finished ← Thread.make { current.toThreadFields with
          turnRecord := .finishedTurn lease.turnId
          projectResumeDue := current.projectResumeDue && turn.keepsProjectResume }
        pure ((document.setThread finished).setSeen name env.now, true, completion)

end RegistryDocument

end AgentComms.Registry
