import AgentComms.Registry.WellFormed

/-!
# Runs of registry operations

Every operation of the document evolves it in the sense of `Evolves`: the
operations that stay on declared rows are in-place edits, and the others are
composed of the edits of `Registry/WellFormed.lean`. A run commits operations one after the
other, each under its own environment; a refused operation is not committed.

`RegistryOp.lost` names what a single operation may forget: the aliases of a
removed thread that hold no generation of their own.
-/

namespace AgentComms.Registry

open Library

namespace Thread

variable {written current : Thread}

/-- The rewritten row of the same thread; its turn reference stays or is not live. -/
structure Retouches (written current : Thread) : Prop where
  identity : written.SameIdentity current
  parent : written.parent = current.parent
  generation : written.turnGeneration = current.turnGeneration
  record : written.turnRecord = current.turnRecord ∨ written.executing = false

theorem retouches_of_make {fields : ThreadFields} (hok : make fields = .ok written)
    (hname : fields.name = current.name) (hbirth : fields.createdAt.birth = current.birth)
    (hparent : fields.parent = current.parent)
    (hturn : fields.turnGeneration = current.turnGeneration)
    (hrecord : fields.turnRecord = current.turnRecord ∨ fields.turnRecord.executing = false) :
    written.Retouches current := by
  refine ⟨sameIdentity_of_make hok hname hbirth, ?_, ?_, ?_⟩
  · rw [make_eq_ok.mp hok, hparent]
  · rw [make_eq_ok.mp hok, hturn]
  · rw [executing, make_eq_ok.mp hok]
    exact hrecord

theorem released_executing (record : TurnRecord) : record.released.executing = false := by
  cases record <;> rfl

theorem withoutTurn_retouches (hok : current.withoutTurn = .ok written) :
    written.Retouches current :=
  retouches_of_make hok rfl rfl rfl rfl (.inr (released_executing _))

theorem withdrawn_retouches (hok : current.withdrawn = .ok written) :
    written.Retouches current := by
  unfold withdrawn at hok
  split at hok
  case h_1 | h_2 => exact retouches_of_make hok rfl rfl rfl rfl (.inl rfl)
  all_goals
    cases hok
    exact ⟨⟨rfl, rfl⟩, rfl, rfl, .inl rfl⟩

end Thread

namespace RegistryDocument

variable {env : Environment} {document edited : RegistryDocument} {name : Name}
  {detached : List Name}

/-! ### Operations in place -/

inductive Touch : RegistryDocument → RegistryDocument → Prop
  | row {document : RegistryDocument} {current written : Thread}
      (hget : document.threads.get? current.name = some current)
      (hretouches : written.Retouches current) : Touch document (document.setThread written)
  | status {document : RegistryDocument} {name : Name} (hname : name ∈ document.threads)
      (status : ThreadStatus) : Touch document (document.setStatus name status)
  | seen (document : RegistryDocument) (name : Name) (time : Time) :
      Touch document (document.setSeen name time)
  | claim (document : RegistryDocument) (name : Name) :
      Touch document (document.advanceClaim name)
  | owner (document : RegistryDocument) (name : Name) :
      Touch document (document.advanceOwner name)

abbrev Touches := Relation.ReflTransGen Touch

theorem Touch.keeps (htouch : Touch document edited) (hwf : document.WellFormed) :
    Keeps document edited := by
  cases htouch with
  | row hget hretouches =>
    exact (Keeps.refl document).setThread hget hretouches.identity.1 hretouches.identity.2
  | status hname status => exact (Keeps.refl document).setStatus hwf hname status
  | seen name time => exact keeps_setSeen document name time
  | claim name => exact keeps_advanceClaim document name
  | owner name => exact keeps_advanceOwner document name

theorem Touches.keeps (htouches : Touches document edited) (hwf : document.WellFormed) :
    Keeps document edited := by
  induction htouches with
  | refl => exact Keeps.refl document
  | tail _ htouch ih => exact ih.trans (htouch.keeps (ih.wellFormed hwf))

theorem withdrawOwner_threads (document : RegistryDocument) (status : ThreadStatus) (name : Name) :
    (document.withdrawOwner status name).threads = document.threads := by
  unfold withdrawOwner
  split <;> rfl

theorem withdrawOwner_touches (document : RegistryDocument) (status : ThreadStatus) (name : Name) :
    Touches document (document.withdrawOwner status name) := by
  unfold withdrawOwner
  split
  · exact .single (.owner document name)
  · exact .refl

/-- What a lease does: the row of an idle thread takes the next turn generation. -/
structure Leases (document : RegistryDocument) (env : Environment) (current leased : Thread)
    (edited : RegistryDocument) : Prop where
  row : document.threads.get? current.name = some current
  idle : env.read current.turnRecord = .ok none
  identity : leased.SameIdentity current
  generation : leased.turnGeneration = current.turnGeneration + 1
  record : leased.turnRecord = .stored current.birth (current.turnGeneration + 1)
  eq : edited = (document.setThread leased).setSeen current.name env.now

variable (hwf : document.WellFormed)
include hwf

theorem withdraw_touches {status : ThreadStatus} {idle : Thread}
    (hok : document.withdraw env name status = .ok (edited, idle)) :
    Touches document edited ∧ edited.threads.get? idle.name = some idle := by
  simp only [withdraw, do_eq_ok] at hok
  obtain ⟨thread, hthread, presence, -, -, -, row, hrow, rfl, rfl⟩ := hok
  have hget := hwf.mem_of_requireThread hthread
  rw [← document.withdrawOwner_threads presence thread.name] at hget
  have htouches := ((document.withdrawOwner_touches presence thread.name).tail
    (.status (Dict.mem_of_get? hget) (thread.registeredStatus env status))).tail
      (.claim _ thread.name)
  exact ⟨htouches.tail (.row hget (Thread.withoutTurn_retouches hrow)), Dict.get?_set_self _ _ _⟩

theorem unregister_touches
    (hok : document.unregister env name = .ok edited) : Touches document edited := by
  simp only [unregister, do_eq_ok, Prod.exists] at hok
  obtain ⟨withdrawn, idle, hwithdraw, released, hreleased, rfl⟩ := hok
  obtain ⟨htouches, hget⟩ := withdraw_touches hwf hwithdraw
  exact htouches.tail (.row hget (Thread.withdrawn_retouches hreleased))

theorem fenceOwner_touches
    (hok : document.fenceOwner env name = .ok edited) : Touches document edited := by
  simp only [fenceOwner, do_eq_ok, Prod.exists] at hok
  obtain ⟨withdrawn, idle, hwithdraw, rfl⟩ := hok
  exact (withdraw_touches hwf hwithdraw).1

theorem archive_touches
    (hok : document.archive env name = .ok edited) : Touches document edited := by
  simp only [archive, do_eq_ok] at hok
  obtain ⟨thread, hthread, presence, -, -, -, rfl⟩ := hok
  have hmem := Dict.mem_of_get? (hwf.mem_of_requireThread hthread)
  rw [← document.withdrawOwner_threads presence thread.name] at hmem
  exact ((document.withdrawOwner_touches presence thread.name).tail
    (.status hmem .archived)).tail (.claim _ thread.name)

theorem beginDelete_touches
    (hok : document.beginDelete env name = .ok edited) : Touches document edited := by
  simp only [beginDelete, do_eq_ok] at hok
  obtain ⟨thread, hthread, presence, -, doomed, -, rfl⟩ := hok
  have hmem := Dict.mem_of_get? (hwf.mem_of_requireThread hthread)
  exact (Relation.ReflTransGen.single (.status hmem doomed)).tail (.claim _ thread.name)

theorem heartbeat_touches
    (hok : document.heartbeat env name = .ok edited) : Touches document edited := by
  simp only [heartbeat, do_eq_ok] at hok
  obtain ⟨thread, hthread, previous, -, resumed, -, rfl⟩ := hok
  have hmem := Dict.mem_of_get? (hwf.mem_of_requireThread hthread)
  have hresumed : ∀ owned : RegistryDocument, Touches document owned →
      owned.threads = document.threads →
      Touches document ((owned.setStatus thread.name resumed).setSeen thread.name env.now) :=
    fun owned howned hsame => (howned.tail (.status (hsame ▸ hmem) resumed)).tail (.seen _ _ _)
  split
  · exact hresumed _ ((Relation.ReflTransGen.single (.claim _ _)).tail (.owner _ _)) rfl
  · exact hresumed _ .refl rfl

theorem get?_of_requireActive {thread : Thread}
    (hok : document.requireActive env name = .ok thread) :
    document.threads.get? thread.name = some thread := by
  simp only [RegistryPresence.requireActive, do_eq_ok] at hok
  obtain ⟨current, hcurrent, -, -, -, -, rfl⟩ := hok
  rw [hwf.rowNames _ _ hcurrent]
  exact hcurrent

theorem fenceRestartOwner_touches {expected : Thread} {generation claimed : Nat}
    (hok : document.fenceRestartOwner env expected generation = .ok (edited, claimed)) :
    Touches document edited := by
  simp only [fenceRestartOwner, do_eq_ok] at hok
  obtain ⟨current, hcurrent, -, -, -, -, -, rfl, -, -, -, -, idle, hidle, -, -, rfl, -⟩ := hok
  have hget := get?_of_requireActive hwf hcurrent
  have hstatus : Touches document (document.setStatus current.name
      (current.registeredStatus env .stopping)) := .single (.status (Dict.mem_of_get? hget) _)
  have hfenced := (hstatus.tail (.claim _ current.name)).tail (.owner _ current.name)
  exact hfenced.tail (.row hget (Thread.withoutTurn_retouches hidle))

theorem leaseTurn_leases {leased : Thread} {owner : Nat}
    (hok : document.leaseTurn env name = .ok (edited, leased, owner)) :
    ∃ current, Leases document env current leased edited := by
  simp only [leaseTurn, do_eq_ok] at hok
  obtain ⟨current, hcurrent, -, -, -, -, -, -, turn, hturn, -, hidle, -, -, -, -, row, hrow, -, -,
    hedited, rfl, -⟩ := hok
  have hsame : row.SameIdentity current := Thread.sameIdentity_of_make hrow rfl rfl
  rw [Thread.make_eq_ok] at hrow
  refine ⟨current, get?_of_requireActive hwf hcurrent, hidle ▸ hturn, hsame, ?_, ?_, hedited.symm⟩
    <;> rw [hrow]

theorem releaseTurn_touches {lease : TurnLeaseFence} {answer : Bool × Option TurnLeaseFence}
    (hok : document.releaseTurn env lease = .ok (edited, answer)) :
    Touches document edited := by
  unfold releaseTurn at hok
  split at hok
  · cases hok
    exact .refl
  · rename_i current hcurrent
    split at hok
    · cases hok
      exact .refl
    · simp only [bind_eq_ok] at hok
      obtain ⟨read, -, turn, -, hok⟩ := hok
      split at hok
      · cases hok
        exact .refl
      · simp only [do_eq_ok] at hok
        obtain ⟨claimed, -, completion, -, finished, hfinished, rfl, -⟩ := hok
        have hget : document.threads.get? current.name = some current := by
          rw [hwf.rowNames _ _ hcurrent]
          exact hcurrent
        exact (Relation.ReflTransGen.single (.row hget
          (Thread.retouches_of_make hfinished rfl rfl rfl rfl (.inr rfl)))).tail (.seen _ _ _)

/-! ### Operations that change names -/

theorem changeTag_evolves {lost : Name → Prop} {originals : List Thread} {tag : String}
    {replacement : Option String}
    (hok : document.changeTag env originals tag replacement = .ok edited) :
    Evolves lost document edited := by
  simp only [changeTag, bind_eq_ok] at hok
  obtain ⟨-, -, hok⟩ := hok
  refine foldlM_invariant _ (fun original _ middle next hmiddle hnext => ?_)
    (Evolves.refl hwf) hok
  simp only [changeTagOf, bind_eq_ok] at hnext
  obtain ⟨current, -, retagged, -, status, -, change, hchange, happly⟩ := hnext
  exact hmiddle.trans (apply_evolves hmiddle.wellFormed
    (prepared_of_prepareRegistration hmiddle.wellFormed hchange) happly)

theorem remove_evolves (hok : document.remove env name = .ok (edited, detached)) :
    Evolves (document.Unrecorded name) document edited := by
  simp only [remove, bind_eq_ok] at hok
  obtain ⟨-, -, -, -, hremoved⟩ := hok
  exact removeThread_evolves hwf hremoved

/-- A removal adds no alias and no thread, and keeps every claim generation. -/
theorem removeThread_frame (hok : document.removeThread env name = .ok (edited, detached)) :
    (∀ former target, edited.aliases.get? former = some target →
      document.aliases.get? former = some target) ∧
    (∀ other, other ∈ edited.threads → other ∈ document.threads) ∧
    ∀ other, other ∈ document.claims.generations → other ∈ edited.claims.generations := by
  simp only [removeThread, do_eq_ok] at hok
  obtain ⟨thread, -, orphaned, horphaned, presence, -, rfl, -⟩ := hok
  have hkeeps := ((setParent_frame (fun child hchild =>
    get?_of_mem_children hwf.rowNames hchild) horphaned).1.trans
      (keeps_withdrawOwner orphaned presence thread.name)).advanceClaim thread.name
  refine ⟨fun former target hget => ?_, fun other hother => ?_, hkeeps.claims⟩
  · rw [Dict.get?_filter, Option.filter_eq_some_iff, hkeeps.aliases] at hget
    exact hget.1
  · exact (hkeeps.mem_threads other).mp (Dict.mem_erase.mp hother).2

/-- What a later removal forgets, an earlier one could already forget. -/
theorem unrecorded_of_removeThread
    (hok : document.removeThread env name = .ok (edited, detached)) {other former : Name}
    (hlost : edited.Unrecorded other former) : document.Unrecorded other former := by
  obtain ⟨haliases, hthreads, hclaims⟩ := removeThread_frame hwf hok
  have hedited := (removeThread_evolves hwf hok).wellFormed
  obtain ⟨hformer, hrecorded⟩ := hlost
  have htarget := (hedited.aliasNames former _ hformer).1
  have hcanonical : edited.canonicalName other = document.canonicalName other := by
    unfold RegistryPresence.canonicalName at htarget ⊢
    cases hget : edited.aliases.get? other with
    | some target => rw [haliases other target hget]
    | none =>
      -- an alias of the removed thread resolves to itself now, but it is not a thread
      rw [hget, Option.getD_none] at htarget
      have hnone := Dict.get?_eq_none_iff.mpr
        (hwf.name_not_alias (hthreads other htarget))
      rw [hnone]
  exact ⟨hcanonical ▸ haliases former _ hformer, fun hclaim => hrecorded (hclaims former hclaim)⟩

theorem removeOriginals_evolves {originals : List Thread}
    (hok : document.removeOriginals env originals = .ok edited) :
    Evolves (fun former => ∃ original ∈ originals, document.Unrecorded original.name former)
      document edited := by
  simp only [removeOriginals, bind_eq_ok] at hok
  obtain ⟨-, -, -, -, hok⟩ := hok
  have hinvariant := foldlM_invariant
    (fun middle => Evolves
      (fun former => ∃ original ∈ originals, document.Unrecorded original.name former)
      document middle ∧
      ∀ other former, middle.Unrecorded other former → document.Unrecorded other former)
    (fun original horiginal middle next hmiddle hnext => ?_)
    ⟨Evolves.refl hwf, fun _ _ hlost => hlost⟩ hok
  · exact hinvariant.1
  · simp only [do_eq_ok, Prod.exists] at hnext
    obtain ⟨removed, detached, hremoved, rfl⟩ := hnext
    have hstep := removeThread_evolves hmiddle.1.wellFormed hremoved
    refine ⟨⟨hstep.wellFormed, fun name hknown => ?_⟩, fun other former hlost =>
      hmiddle.2 other former (unrecorded_of_removeThread hmiddle.1.wellFormed hremoved hlost)⟩
    rcases hmiddle.1.known name hknown with hstill | hlost
    · rcases hstep.known name hstill with hkept | hlost
      · exact Or.inl hkept
      · exact Or.inr ⟨original, horiginal, hmiddle.2 _ _ hlost⟩
    · exact Or.inr hlost

end RegistryDocument

/-! ### Operations and runs -/

inductive RegistryOp where
  | register (thread : Thread) (status : ThreadStatus) (newOwner : Bool)
  | declare (thread : Thread) (status : ThreadStatus)
  | changeTag (originals : List Thread) (tag : String) (replacement : Option String)
  | rename (name newName : Name)
  | fenceRestartOwner (expected : Thread) (expectedClaimedGeneration : Nat)
  | unregister (name : Name)
  | fenceOwner (name : Name)
  | archive (name : Name)
  | beginDelete (name : Name)
  | remove (name : Name)
  | removeOriginals (originals : List Thread)
  | restoreStopped (source : RegistrySnapshot) (names : List Name)
  | heartbeat (name : Name)
  | leaseTurn (name : Name)
  | releaseTurn (lease : TurnLeaseFence)

namespace RegistryOp

open RegistryDocument

def perform (op : Environment × RegistryOp) (document : RegistryDocument) :
    Checked RegistryDocument :=
  let env := op.1
  match op.2 with
  | register thread status newOwner => do
      let change ← document.prepareRegistration env thread status newOwner
      change.apply env document
  | declare thread status => do
      let change ← document.prepareDeclaration env thread status
      change.apply env document
  | changeTag originals tag replacement => document.changeTag env originals tag replacement
  | rename name newName => Prod.fst <$> document.rename env name newName
  | fenceRestartOwner expected generation =>
    Prod.fst <$> document.fenceRestartOwner env expected generation
  | unregister name => document.unregister env name
  | fenceOwner name => document.fenceOwner env name
  | archive name => document.archive env name
  | beginDelete name => document.beginDelete env name
  | remove name => Prod.fst <$> document.remove env name
  | removeOriginals originals => document.removeOriginals env originals
  | restoreStopped source names => Prod.fst <$> document.restoreStopped env source names
  | heartbeat name => document.heartbeat env name
  | leaseTurn name => Prod.fst <$> document.leaseTurn env name
  | releaseTurn lease => Prod.fst <$> document.releaseTurn env lease

def lost (document : RegistryDocument) : RegistryOp → Name → Prop
  | remove name => document.Unrecorded name
  | removeOriginals originals => fun former =>
    ∃ original ∈ originals, document.Unrecorded original.name former
  | _ => fun _ => False

/-- The operations that stay on the row of one declared thread and start no turn. -/
def inPlace : RegistryOp → Bool
  | fenceRestartOwner .. | unregister _ | fenceOwner _ | archive _ | beginDelete _ | heartbeat _
  | releaseTurn _ => true
  | _ => false

theorem perform_touches {op : Environment × RegistryOp} {document edited : RegistryDocument}
    (hwf : document.WellFormed) (hop : op.2.inPlace = true)
    (hok : perform op document = .ok edited) : Touches document edited := by
  obtain ⟨env, op⟩ := op
  cases op with
  | fenceRestartOwner =>
    obtain ⟨⟨_, claimed⟩, hfence, rfl⟩ := map_eq_ok.mp hok
    exact fenceRestartOwner_touches hwf hfence
  | unregister => exact unregister_touches hwf hok
  | fenceOwner => exact fenceOwner_touches hwf hok
  | archive => exact archive_touches hwf hok
  | beginDelete => exact beginDelete_touches hwf hok
  | heartbeat => exact heartbeat_touches hwf hok
  | releaseTurn =>
    obtain ⟨⟨_, answer⟩, hrelease, rfl⟩ := map_eq_ok.mp hok
    exact releaseTurn_touches hwf hrelease
  | _ => cases hop

theorem perform_evolves {op : Environment × RegistryOp} {document edited : RegistryDocument}
    (hwf : document.WellFormed) (hok : perform op document = .ok edited) :
    Evolves (op.2.lost document) document edited := by
  obtain ⟨env, op⟩ := op
  cases op with
  | register =>
    simp only [perform, bind_eq_ok] at hok
    obtain ⟨change, hchange, happly⟩ := hok
    exact apply_evolves hwf (prepared_of_prepareRegistration hwf hchange) happly
  | declare =>
    simp only [perform, bind_eq_ok] at hok
    obtain ⟨change, hchange, happly⟩ := hok
    exact apply_evolves hwf (prepared_of_prepareDeclaration hwf hchange) happly
  | changeTag => exact changeTag_evolves hwf hok
  | rename =>
    obtain ⟨⟨_, names⟩, hrename, rfl⟩ := map_eq_ok.mp hok
    exact rename_evolves hwf hrename
  | remove =>
    obtain ⟨⟨_, detached⟩, hremove, rfl⟩ := map_eq_ok.mp hok
    exact remove_evolves hwf hremove
  | removeOriginals => exact removeOriginals_evolves hwf hok
  | restoreStopped =>
    obtain ⟨⟨_, restored⟩, hrestore, rfl⟩ := map_eq_ok.mp hok
    exact restoreStopped_evolves hwf hrestore
  | leaseTurn =>
    obtain ⟨⟨_, leased, owner⟩, hlease, rfl⟩ := map_eq_ok.mp hok
    obtain ⟨current, hleases⟩ := leaseTurn_leases hwf hlease
    rw [hleases.eq]
    exact (((Keeps.refl document).setThread hleases.row hleases.identity.1
      hleases.identity.2).setSeen current.name env.now).evolves hwf
  | _ => exact ((perform_touches hwf rfl hok).keeps hwf).evolves hwf

end RegistryOp

end AgentComms.Registry
