import AgentComms.Registry.Turns

/-!
# Turn lease fencing

One invariant carries the fencing of turn leases: a live reference is that of its row's
own turn, no row lies below a lease of its birth, a released lease's turn is not live, and
a file that its lease still holds is the live turn of a row whose claim is the lease's.
Every event keeps it, provided that a registration or a restoration does not hand back
an old turn: over a declared row, a live reference is the row's own; a first declaration
has none, and its turn generation is not below that of a lease of the birth it takes.
-/

namespace AgentComms.Registry

open Library

/-! ### The condition -/

def RegistryPresence.newBirth (names : RegistryPresence) (thread : Thread) : Option Nat :=
  (thread.createdAt.distinctFrom names.births).toOption.map CreationTime.birth

namespace TurnRegistry

def Admits (registry : TurnRegistry) (thread : Thread) : Prop :=
  match registry.document.threads.get? (registry.document.canonicalName thread.name) with
  | some row => thread.executing = true → thread.turnGeneration = row.turnGeneration →
      thread.turnRecord = row.turnRecord
  | none => thread.executing = false ∧ ∀ lease ∈ registry.issued,
      registry.document.newBirth thread = some lease.birth →
        lease.generation ≤ thread.turnGeneration

instance (registry : TurnRegistry) (thread : Thread) : Decidable (registry.Admits thread) := by
  unfold Admits
  split <;> infer_instance

def Meets (registry : TurnRegistry) : TurnEvent → Prop
  | .edit _ op => ∀ thread ∈ op.given, registry.Admits thread
  | _ => True

instance (registry : TurnRegistry) (event : TurnEvent) : Decidable (registry.Meets event) := by
  unfold Meets
  split <;> infer_instance

end TurnRegistry

/-! ### Rows after an edit -/

theorem executing_congr {thread other : Thread} (hrecord : thread.turnRecord = other.turnRecord) :
    thread.executing = other.executing := by
  rw [Thread.executing, hrecord, Thread.executing]

theorem executing_eq_true {thread : Thread} {birth generation : Nat}
    (hrecord : thread.turnRecord = .stored birth generation) : thread.executing = true := by
  rw [Thread.executing, hrecord]
  rfl

namespace RegistryDocument

variable {document middle edited : RegistryDocument} {admits : Nat → Nat → Prop}

/-- Every row continues the turn of a row, live only with its reference, or it was
declared idle with an admitted generation. -/
def TurnsFrom (admits : Nat → Nat → Prop) (document edited : RegistryDocument) : Prop :=
  ∀ name thread, edited.threads.get? name = some thread →
    (∃ former before, document.threads.get? former = some before ∧
      before.turnIdentity = thread.turnIdentity ∧
      (thread.turnRecord = before.turnRecord ∨ thread.executing = false)) ∨
    thread.executing = false ∧ admits thread.birth thread.turnGeneration

theorem TurnsFrom.refl (admits : Nat → Nat → Prop) (document : RegistryDocument) :
    TurnsFrom admits document document :=
  fun name thread hget => .inl ⟨name, thread, hget, rfl, .inl rfl⟩

theorem TurnsFrom.trans (hfirst : TurnsFrom admits document middle)
    (hrest : TurnsFrom admits middle edited) : TurnsFrom admits document edited := by
  intro name thread hget
  rcases hrest name thread hget with ⟨former, before, hbefore, hsame, hrecord⟩ | hdeclared
  · have hidentity := Prod.mk.inj hsame
    rcases hfirst former before hbefore with ⟨first, row, hrow, hsame', hrecord'⟩ | ⟨hidle, hadmits⟩
    · refine .inl ⟨first, row, hrow, hsame'.trans hsame, ?_⟩
      rcases hrecord with hkept | hidle
      · exact hrecord'.imp hkept.trans (executing_congr hkept).trans
      · exact .inr hidle
    · refine .inr ⟨?_, ?_⟩
      · exact hrecord.elim (fun hkept => (executing_congr hkept).trans hidle) id
      · rw [← hidentity.1, ← hidentity.2]
        exact hadmits
  · exact .inr hdeclared

theorem TurnsFrom.of_rows (hrows : ∀ name thread, edited.threads.get? name = some thread →
      document.threads.get? name = some thread) : TurnsFrom admits document edited :=
  fun name thread hget => .inl ⟨name, thread, hrows name thread hget, rfl, .inl rfl⟩

theorem TurnsFrom.of_set {name : Name} {written : Thread}
    (hthreads : edited.threads = document.threads.set name written)
    (hwritten : (∃ former before, document.threads.get? former = some before ∧
        before.turnIdentity = written.turnIdentity ∧
        (written.turnRecord = before.turnRecord ∨ written.executing = false)) ∨
      written.executing = false ∧ admits written.birth written.turnGeneration) :
    TurnsFrom admits document edited := by
  intro other thread hget
  rw [hthreads] at hget
  rcases Dict.get?_set_eq_some.mp hget with ⟨-, rfl⟩ | ⟨-, hget⟩
  · exact hwritten
  · exact .inl ⟨other, thread, hget, rfl, .inl rfl⟩

end RegistryDocument

open RegistryDocument

section Edits

variable {registry : TurnRegistry} {given : List Thread} {document edited : RegistryDocument}

/-- The generation is not below that of a lease of the birth. -/
def TurnRegistry.Outruns (registry : TurnRegistry) (birth generation : Nat) : Prop :=
  ∀ lease ∈ registry.issued, lease.birth = birth → lease.generation ≤ generation

theorem outruns_of_declaredFrom {declared thread : Thread} (hadmits : registry.Admits thread)
    (hfrom : declared.DeclaredFrom registry.document thread) :
    declared.executing = false ∧ registry.Outruns declared.birth declared.turnGeneration := by
  have hnone : registry.document.threads.get?
      (registry.document.canonicalName thread.name) = none := by
    rw [hfrom.name]
    exact Dict.get?_eq_none_iff.mpr hfrom.fresh
  rw [TurnRegistry.Admits, hnone] at hadmits
  constructor
  · exact (executing_congr hfrom.record).trans hadmits.1
  · intro lease hlease hbirth
    obtain ⟨createdAt, hdistinct, hborn⟩ := hfrom.birth
    rw [hfrom.generation]
    apply hadmits.2 lease hlease
    rw [RegistryPresence.newBirth, hdistinct, hbirth, hborn]
    rfl

theorem RegistryDocument.Edit.turnsFrom (hgiven : ∀ thread ∈ given, registry.Admits thread)
    (hedit : Edit given registry.document document edited) :
    TurnsFrom registry.Outruns document edited := by
  cases hedit with
  | @row current written hget hrewrites =>
    obtain ⟨hidentity, hgeneration, hrecord⟩ := hrewrites
    refine TurnsFrom.of_set rfl (.inl ⟨current.name, current, hget, ?_, ?_⟩)
    · rw [Thread.turnIdentity, Thread.turnIdentity, hidentity.2, hgeneration]
    · rcases hrecord with hkept | hidle | ⟨thread, hthread, hrow, hsame, hrecord⟩
      · exact .inl hkept
      · exact .inr hidle
      · -- a live reference that was handed over is the row's own
        have hadmits := hgiven thread hthread
        rw [TurnRegistry.Admits, hrow] at hadmits
        cases hlive : thread.executing with
        | true => exact .inl (hrecord.trans (hadmits hlive hsame))
        | false => exact .inr ((executing_congr hrecord).trans hlive)
  | status | seen | claim | owner | aliases => exact .of_rows fun _ _ hget => hget
  | remove =>
    exact .of_rows fun other thread hget => (Dict.get?_erase_eq_some.mp hget).2
  | @declare declared hfresh hdeclared status seen =>
    obtain ⟨thread, hthread, hfrom⟩ := hdeclared
    intro name row hget
    rw [get?_declare] at hget
    split at hget
    · cases hget
      exact .inr (outruns_of_declaredFrom (hgiven thread hthread) hfrom)
    · exact .inl ⟨name, row, hget, rfl, .inl rfl⟩
  | @rename _ canonical newName hrenames hturns hnew howners hclaims =>
    intro name thread hget
    have hcolumns := hturns name
    rw [hget, Option.map_some] at hcolumns
    have hformer : ∃ former before, document.threads.get? former = some before ∧
        before.turnColumns = thread.turnColumns := by
      split at hcolumns
      · obtain ⟨before, hbefore, hsame⟩ := Option.map_eq_some_iff.mp hcolumns.symm
        exact ⟨canonical, before, hbefore, hsame⟩
      · split at hcolumns
        · cases hcolumns
        · obtain ⟨before, hbefore, hsame⟩ := Option.map_eq_some_iff.mp hcolumns.symm
          exact ⟨name, before, hbefore, hsame⟩
    obtain ⟨former, before, hbefore, hsame⟩ := hformer
    simp only [Thread.turnColumns, Prod.mk.injEq] at hsame
    refine .inl ⟨former, before, hbefore, ?_, .inl hsame.2.2.symm⟩
    rw [Thread.turnIdentity, Thread.turnIdentity, hsame.1, hsame.2.1]

theorem RegistryDocument.Edits.turnsFrom (hgiven : ∀ thread ∈ given, registry.Admits thread)
    (hedits : Edits given registry.document document edited) :
    TurnsFrom registry.Outruns document edited := by
  induction hedits with
  | refl => exact .refl _ document
  | tail _ hedit ih => exact ih.trans (hedit.turnsFrom hgiven)

end Edits

/-! ### The invariant -/

/-- A live reference is that of the row's own turn. -/
def RegistryDocument.Bound (document : RegistryDocument) : Prop :=
  ∀ name thread, document.threads.get? name = some thread → thread.executing = true →
    thread.turnRecord = .stored thread.birth thread.turnGeneration

def TurnRegistry.HeldBy (files : TurnFiles) (lease : TurnLeaseFence) : Prop :=
  ∃ file, files.get? lease.identity = some file ∧ file.active.heldBy lease = true

/-- The lease's turn is the live turn of a row whose claim is the lease's. -/
def RegistryDocument.Live (document : RegistryDocument) (lease : TurnLeaseFence) : Prop :=
  ∃ name thread, document.threads.get? name = some thread ∧
    thread.turnIdentity = lease.identity ∧ thread.executing = true ∧
    document.claims.generations.get? name = some lease.claimedGeneration

structure TurnRegistry.Fenced (registry : TurnRegistry) : Prop where
  wellFormed : registry.document.WellFormed
  bound : registry.document.Bound
  outruns : ∀ name thread, registry.document.threads.get? name = some thread →
    registry.Outruns thread.birth thread.turnGeneration
  increasing : registry.issued.Pairwise fun later earlier =>
    later.birth = earlier.birth → earlier.generation < later.generation
  issued : ∀ lease ∈ registry.released, lease ∈ registry.issued
  idle : ∀ lease ∈ registry.released, ∀ name thread,
    registry.document.threads.get? name = some thread → thread.turnIdentity = lease.identity →
      thread.executing = false
  once : registry.released.Pairwise fun later earlier => later.identity ≠ earlier.identity
  live : ∀ lease ∈ registry.issued, TurnRegistry.HeldBy registry.files lease →
    registry.document.Live lease

theorem not_heldBy_withoutClaim (file : TurnFile) (lease : TurnLeaseFence) :
    file.withoutClaim.active.heldBy lease = false := by
  simp [TurnFile.active, TurnFile.withoutClaim, ActiveTurn.heldBy, ActiveTurn.current]

/-- A bound document is decoded as it was stored. -/
theorem RegistryDocument.Bound.bound_eq {document : RegistryDocument} (hbound : document.Bound) :
    document.bound = document := by
  have hthread : ∀ name thread, document.threads.get? name = some thread →
      thread.bound = thread := by
    intro name thread hget
    unfold Thread.bound
    split
    next hlive =>
      have hrecord := hbound name thread hget hlive
      cases thread
      congr 1
      rw [← hrecord]
    · rfl
  unfold RegistryDocument.bound
  congr 2
  exact Dict.mapValues_eq_self hthread

namespace TurnRegistry

variable {registry : TurnRegistry} {edited : RegistryDocument} {name : Name}
  {lease : TurnLeaseFence} {env : Environment} {op : RegistryOp} {next : TurnRegistry}
  {turnId : String} {document : RegistryDocument} {phase : TurnPhase} {native : Bool}
  {event : TurnEvent}

section

variable (hfenced : registry.Fenced)
include hfenced

theorem Fenced.row_unique {other : Name} {thread row : Thread}
    (hget : registry.document.threads.get? name = some thread)
    (hget' : registry.document.threads.get? other = some row) (hbirth : thread.birth = row.birth) :
    name = other ∧ thread = row := by
  have hname := hfenced.wellFormed.distinctBirths _ _ _ _ hget hget' hbirth
  subst hname
  rw [hget] at hget'
  exact ⟨rfl, Option.some.inj hget'⟩

/-- Fewer files are held, and nothing else changed. -/
theorem Fenced.files {files : TurnFiles}
    (hfiles : ∀ lease ∈ registry.issued, HeldBy files lease → HeldBy registry.files lease) :
    ({ registry with files := files } : TurnRegistry).Fenced :=
  { hfenced with
    live := fun lease hlease hheld => hfenced.live lease hlease (hfiles lease hlease hheld) }

omit hfenced in
/-- A file that is held after claims were dropped was held before and kept its claim. -/
theorem heldBy_of_mapValues {files : TurnFiles} {drops : Nat × Nat → Prop} [DecidablePred drops]
    (hheld : HeldBy (files.mapValues fun identity file =>
      if drops identity then file.withoutClaim else file) lease) :
    HeldBy files lease ∧ ¬ drops lease.identity := by
  obtain ⟨file, hget, hfile⟩ := hheld
  rw [Dict.get?_mapValues] at hget
  obtain ⟨before, hbefore, rfl⟩ := Option.map_eq_some_iff.mp hget
  by_cases hdrops : drops lease.identity
  · rw [if_pos hdrops, not_heldBy_withoutClaim] at hfile
    cases hfile
  · rw [if_neg hdrops] at hfile
    exact ⟨⟨before, hbefore, hfile⟩, hdrops⟩

/-- A live turn whose grant the edit kept is live afterwards. -/
theorem live_of_not_revokes (hwf : edited.WellFormed)
    (hbound : edited.Bound) (hlive : registry.document.Live lease)
    (hkept : ¬ registry.document.revokes edited lease.identity = true) : edited.Live lease := by
  obtain ⟨name, thread, hget, hidentity, hexecuting, hclaim⟩ := hlive
  have hrecord := hfenced.bound name thread hget hexecuting
  simp only [Thread.turnIdentity, TurnLeaseFence.identity, Prod.mk.injEq] at hidentity
  have hgrant : registry.document.keepsGrant edited thread = true := by
    by_contra hlost
    apply hkept
    refine List.any_eq_true.mpr ⟨thread, Dict.mem_values.mpr ⟨name, hget⟩, ?_⟩
    simp only [Bool.not_eq_true] at hlost
    simp [Thread.turnIdentity, TurnLeaseFence.identity, hidentity, hrecord, hlost]
  obtain ⟨kept, hmem, hsame⟩ := List.any_eq_true.mp hgrant
  obtain ⟨other, hother⟩ := Dict.mem_values.mp hmem
  simp only [Bool.and_eq_true, decide_eq_true_eq] at hsame
  obtain ⟨⟨hbirth, hreference⟩, hclaims⟩ := hsame
  have hlive' : kept.executing = true := executing_eq_true (hreference.trans hrecord)
  have hgeneration : kept.turnGeneration = thread.turnGeneration := by
    have hown := hbound other kept hother hlive'
    rw [hreference, hrecord] at hown
    exact (TurnRecord.stored.inj hown).2.symm
  refine ⟨other, kept, hother, ?_, hlive', ?_⟩
  · simp only [Thread.turnIdentity, TurnLeaseFence.identity, hbirth, hgeneration, hidentity]
  · rw [hwf.rowNames _ _ hother, hfenced.wellFormed.rowNames _ _ hget, hclaim] at hclaims
    exact hclaims

omit hfenced in
/-- A live turn is live after another row was written. -/
theorem live_of_set {written : Thread}
    (hthreads : edited.threads = document.threads.set name written)
    (hclaims : edited.claims = document.claims) (hlive : document.Live lease)
    (hother : ∀ thread, document.threads.get? name = some thread →
      thread.turnIdentity = lease.identity → thread.executing = false) : edited.Live lease := by
  obtain ⟨other, thread, hget, hidentity, hexecuting, hclaim⟩ := hlive
  have hname : other ≠ name := by
    rintro rfl
    exact absurd hexecuting (by simp [hother thread hget hidentity])
  refine ⟨other, thread, ?_, hidentity, hexecuting, hclaims ▸ hclaim⟩
  rw [hthreads, Dict.get?_set_of_ne _ _ hname]
  exact hget

/-! ### Steps -/

theorem Fenced.bound_of_turnsFrom
    (hturns : TurnsFrom registry.Outruns registry.document edited) : edited.Bound := by
  intro name thread hget hlive
  rcases hturns name thread hget with ⟨former, before, hbefore, hsame, hrecord⟩ | ⟨hidle, -⟩
  · rcases hrecord with hkept | hidle
    · have hbefore' := hfenced.bound former before hbefore ((executing_congr hkept).symm.trans hlive)
      have hidentity := Prod.mk.inj hsame
      rw [hkept, hbefore', hidentity.1, hidentity.2]
    · rw [hlive] at hidle
      cases hidle
  · rw [hlive] at hidle
    cases hidle

/-- An edit whose rows continue the turns they had. -/
theorem Fenced.of_turnsFrom {files : TurnFiles}
    (hwf : edited.WellFormed) (hturns : TurnsFrom registry.Outruns registry.document edited)
    (hlive : ∀ lease ∈ registry.issued, HeldBy files lease → edited.Live lease) :
    ({ registry with document := edited, files := files } : TurnRegistry).Fenced where
  wellFormed := hwf
  bound := hfenced.bound_of_turnsFrom hturns
  outruns := by
    intro name thread hget
    rcases hturns name thread hget with ⟨former, before, hbefore, hsame, -⟩ | ⟨-, houtruns⟩
    · have hidentity := Prod.mk.inj hsame
      have houtruns := hfenced.outruns former before hbefore
      rwa [hidentity.1, hidentity.2] at houtruns
    · exact houtruns
  increasing := hfenced.increasing
  issued := hfenced.issued
  idle := by
    intro lease hlease name thread hget hidentity
    rcases hturns name thread hget with ⟨former, before, hbefore, hsame, hrecord⟩ | ⟨hidle, -⟩
    · rcases hrecord with hkept | hidle
      · exact (executing_congr hkept).trans
          (hfenced.idle lease hlease former before hbefore (hsame.trans hidentity))
      · exact hidle
    · exact hidle
  once := hfenced.once
  live := hlive

theorem Fenced.turnsFrom_of_perform (hop : op.changesTurn = false)
    (hmeets : ∀ thread ∈ op.given, registry.Admits thread)
    (hok : RegistryOp.perform (env, op) registry.document = .ok edited) :
    TurnsFrom registry.Outruns registry.document edited := by
  have hleases : op.leases = false := by
    cases op <;> first | rfl | cases hop
  exact RegistryDocument.Edits.turnsFrom hmeets
    (RegistryOp.perform_edits hfenced.wellFormed hleases hok)

theorem Fenced.bound_of_perform (hop : op.changesTurn = false)
    (hmeets : ∀ thread ∈ op.given, registry.Admits thread)
    (hok : RegistryOp.perform (env, op) registry.document = .ok edited) : edited.Bound :=
  hfenced.bound_of_turnsFrom (hfenced.turnsFrom_of_perform hop hmeets hok)

theorem Fenced.edit (hop : op.changesTurn = false)
    (hmeets : ∀ thread ∈ op.given, registry.Admits thread) (hok : registry.edit env op = .ok next)
    : next.Fenced := by
  simp only [TurnRegistry.edit, do_eq_ok] at hok
  obtain ⟨edited, hedited, -, -, rfl⟩ := hok
  have hwf := (RegistryOp.perform_evolves hfenced.wellFormed hedited).wellFormed
  have hbound := hfenced.bound_of_perform hop hmeets hedited
  rw [hbound.bound_eq]
  refine hfenced.of_turnsFrom hwf (hfenced.turnsFrom_of_perform hop hmeets hedited)
    fun lease hlease hheld => ?_
  obtain ⟨hbefore, hkept⟩ := heldBy_of_mapValues hheld
  exact live_of_not_revokes hfenced hwf hbound (hfenced.live lease hlease hbefore) hkept

/-- Only an idle row reads no turn. -/
theorem Fenced.idle_of_read {thread : Thread}
    (hget : registry.document.threads.get? name = some thread)
    (hread : (registry.reading env).read thread.turnRecord = .ok none) :
    thread.executing = false := by
  by_contra hlive
  rw [Bool.not_eq_false] at hlive
  have hrecord := hfenced.bound name thread hget hlive
  -- the row found by its birth is this one, and its file is read or missing
  have hcurrent : registry.document.currentTurn thread.birth thread.turnGeneration =
      .stored thread.birth thread.turnGeneration := by
    unfold RegistryPresence.currentTurn
    split
    next found hfound =>
      obtain ⟨other, hother⟩ := Dict.mem_values.mp (List.mem_of_find?_eq_some hfound)
      have hbirth : found.birth = thread.birth := by
        simpa using List.find?_some hfound
      rw [(hfenced.row_unique hother hget hbirth).2]
      exact hrecord
    · rfl
  rw [hrecord] at hread
  simp only [Environment.read, reading, readTurn, hcurrent, do_eq_ok] at hread
  obtain ⟨file, -, hfile⟩ := hread
  cases hfile

end

/-- What a lease allocates: the next generation of an idle row, with the row's claim. -/
structure Begins (registry : TurnRegistry) (env : Environment) (turnId : String)
    (current leased : Thread) (document : RegistryDocument) (file : TurnFile)
    (lease : TurnLeaseFence) : Prop where
  leases : Leases registry.document (registry.reading env) current leased document
  claim : registry.document.claims.generations.get? current.name = some lease.claimedGeneration
  identity : lease.identity = leased.turnIdentity
  turn : lease.turnId = turnId
  file : file = ⟨turnId, env.now, some lease.claimedGeneration, some lease.generation,
    .preparing ""⟩

theorem begin_begins {file : TurnFile} (hwf : registry.document.WellFormed)
    (hok : registry.begin env name turnId = .ok (document, file, lease)) :
    ∃ current leased, Begins registry env turnId current leased document file lease := by
  simp only [begin, do_eq_ok, Prod.exists] at hok
  obtain ⟨edited, leased, owner, hlease, claimed, hclaimed, rfl, rfl, rfl⟩ := hok
  obtain ⟨current, hleases⟩ := leaseTurn_leases hwf hlease
  refine ⟨current, leased, hleases, ?_, rfl, rfl, rfl⟩
  rw [← hleases.identity.1]
  exact hclaimed

theorem perform_of_begin {file : TurnFile}
    (hok : registry.begin env name turnId = .ok (document, file, lease)) :
    RegistryOp.perform (registry.reading env, .leaseTurn name) registry.document =
      .ok document := by
  simp only [begin, do_eq_ok, Prod.exists] at hok
  obtain ⟨edited, thread, owner, hlease, -, -, rfl, -⟩ := hok
  exact map_eq_ok.mpr ⟨_, hlease, rfl⟩

namespace Begins

variable {env : Environment} {turnId : String} {current leased : Thread}
  {document : RegistryDocument} {file : TurnFile} {lease : TurnLeaseFence}
  (hbegins : Begins registry env turnId current leased document file lease)

include hbegins

theorem birth_eq : lease.birth = current.birth :=
  (Prod.mk.inj hbegins.identity).1.trans hbegins.leases.identity.2

theorem generation_eq : lease.generation = current.turnGeneration + 1 :=
  (Prod.mk.inj hbegins.identity).2.trans hbegins.leases.generation

theorem threads_eq : document.threads = registry.document.threads.set current.name leased := by
  rw [hbegins.leases.eq, ← hbegins.leases.identity.1]
  rfl

theorem claims_eq : document.claims = registry.document.claims := by
  rw [hbegins.leases.eq]
  rfl

/-- The leases issued before lie below the new one. -/
theorem lt_generation (hfenced : registry.Fenced) {earlier : TurnLeaseFence}
    (hearlier : earlier ∈ registry.issued) (hbirth : earlier.birth = lease.birth) :
    earlier.generation < lease.generation := by
  have hle := hfenced.outruns current.name current hbegins.leases.row earlier hearlier
    (hbirth.trans hbegins.birth_eq)
  rw [hbegins.generation_eq]
  exact Nat.lt_succ_of_le hle

/-- The new file is that of no earlier lease. -/
theorem heldBy_set (hfenced : registry.Fenced) {earlier : TurnLeaseFence}
    (hearlier : earlier ∈ registry.issued)
    (hheld : HeldBy (registry.files.set lease.identity file) earlier) :
    HeldBy registry.files earlier := by
  obtain ⟨stored, hget, hstored⟩ := hheld
  rcases Dict.get?_set_eq_some.mp hget with ⟨hsame, -⟩ | ⟨-, hget⟩
  · have hidentity := Prod.mk.inj hsame
    have hlt := hbegins.lt_generation hfenced hearlier hidentity.1
    exact absurd hidentity.2 hlt.ne
  · exact ⟨stored, hget, hstored⟩

/-- A row after the lease: the leased one, or one of another birth. -/
theorem row_cases (hfenced : registry.Fenced) {thread : Thread}
    (hget : document.threads.get? name = some thread) :
    name = current.name ∧ thread = leased ∨
      registry.document.threads.get? name = some thread ∧ thread.birth ≠ lease.birth := by
  rw [hbegins.threads_eq] at hget
  rcases Dict.get?_set_eq_some.mp hget with ⟨hname, rfl⟩ | ⟨hname, hget⟩
  · exact .inl ⟨hname, rfl⟩
  · refine .inr ⟨hget, fun hbirth => hname ?_⟩
    exact (hfenced.row_unique hget hbegins.leases.row (hbirth.trans hbegins.birth_eq)).1

end Begins

theorem Fenced.leaseRetained (hfenced : registry.Fenced)
    (hok : registry.leaseRetained env name turnId = .ok (next, lease)) : next.Fenced := by
  simp only [TurnRegistry.leaseRetained, do_eq_ok, Prod.exists] at hok
  obtain ⟨document, file, issued, hbegin, rfl, rfl⟩ := hok
  obtain ⟨current, leased, hbegins⟩ := begin_begins hfenced.wellFormed hbegin
  have hidentity : leased.turnIdentity = issued.identity := hbegins.identity.symm
  have hrecord : leased.turnRecord = .stored leased.birth leased.turnGeneration := by
    rw [hbegins.leases.record, hbegins.leases.generation, hbegins.leases.identity.2]
  -- the only lease of the new row's turn is the new one
  have hnew : ∀ lease ∈ registry.issued, leased.turnIdentity ≠ lease.identity := by
    intro lease hlease hsame
    have hsame' := Prod.mk.inj (hidentity.symm.trans hsame)
    exact absurd hsame'.2.symm (hbegins.lt_generation hfenced hlease hsame'.1.symm).ne
  refine
    { wellFormed := ?_
      bound := ?_
      outruns := ?_
      increasing := ?_
      issued := fun lease hlease => List.mem_cons_of_mem _ (hfenced.issued lease hlease)
      idle := ?_
      once := hfenced.once
      live := ?_ }
  · exact (RegistryOp.perform_evolves hfenced.wellFormed (perform_of_begin hbegin)).wellFormed
  · intro other thread hget hlive
    rcases hbegins.row_cases hfenced hget with ⟨-, rfl⟩ | ⟨hbefore, -⟩
    · exact hrecord
    · exact hfenced.bound other thread hbefore hlive
  · intro other thread hget lease hlease hbirth
    rcases hbegins.row_cases hfenced hget with ⟨-, rfl⟩ | ⟨hbefore, hother⟩
    · have hsame := Prod.mk.inj hidentity
      rcases List.mem_cons.mp hlease with rfl | hlease
      · exact hsame.2.ge
      · rw [hsame.2]
        exact (hbegins.lt_generation hfenced hlease (hbirth.trans hsame.1)).le
    · rcases List.mem_cons.mp hlease with rfl | hlease
      · exact absurd hbirth.symm hother
      · exact hfenced.outruns other thread hbefore lease hlease hbirth
  · refine List.pairwise_cons.mpr ⟨fun earlier hearlier hbirth => ?_, hfenced.increasing⟩
    exact hbegins.lt_generation hfenced hearlier hbirth.symm
  · intro lease hlease other thread hget hsame
    rcases hbegins.row_cases hfenced hget with ⟨-, rfl⟩ | ⟨hbefore, -⟩
    · exact absurd hsame (hnew lease (hfenced.issued lease hlease))
    · exact hfenced.idle lease hlease other thread hbefore hsame
  · intro lease hlease hheld
    rcases List.mem_cons.mp hlease with rfl | hlease
    · refine ⟨current.name, leased, ?_, hidentity, executing_eq_true hrecord, ?_⟩
      · rw [hbegins.threads_eq, Dict.get?_set_self]
      · rw [hbegins.claims_eq]
        exact hbegins.claim
    · refine live_of_set hbegins.threads_eq hbegins.claims_eq
        (hfenced.live lease hlease (hbegins.heldBy_set hfenced hlease hheld)) ?_
      -- the leased row was idle
      intro thread hget _
      cases hbegins.leases.row.symm.trans hget
      exact hfenced.idle_of_read hget hbegins.leases.idle

/-- What a release that is answered `True` found and wrote: the lease's turn was the live
turn of a row, and the row is idle. -/
structure Releases (document : RegistryDocument) (env : Environment) (lease : TurnLeaseFence)
    (current finished : Thread) (edited : RegistryDocument) : Prop where
  row : document.threads.get? current.name = some current
  identity : current.turnIdentity = lease.identity
  live : current.executing = true
  same : finished.SameIdentity current
  generation : finished.turnGeneration = current.turnGeneration
  idle : finished.executing = false
  eq : edited = (document.setThread finished).setSeen current.name env.now

/-- A completion attests the lease: the row's claim is the lease's and it is active. -/
def Attests (document : RegistryDocument) (env : Environment) (lease : TurnLeaseFence)
    (name : Name) : Prop :=
  document.claims.generations.get? name = some lease.claimedGeneration ∧
    ∃ presence, document.status env name = .ok presence ∧ presence.active = true

theorem completedTurn_attests {fence : TurnLeaseFence} {turn : ActiveTurn} {claimed : Nat}
    (hclaimed : document.claims.generations.get? name = some claimed)
    (hok : document.completedTurn env lease turn claimed name = .ok (some fence)) :
    Attests document env lease name := by
  unfold completedTurn at hok
  split at hok
  next hattested =>
    simp only [do_eq_ok] at hok
    obtain ⟨presence, hpresence, hfence⟩ := hok
    split at hfence
    next hactive =>
      simp only [TurnLeaseFence.canAttest, Bool.and_eq_true, decide_eq_true_eq] at hattested
      refine ⟨?_, presence, hpresence, hactive⟩
      rw [hattested.1.2.2]
      exact hclaimed
    · cases hfence
  · cases hok

theorem releaseTurn_cases {released : Bool} {completion : Option TurnLeaseFence}
    (hwf : document.WellFormed)
    (hok : document.releaseTurn env lease = .ok (edited, released, completion)) :
    edited = document ∧ released = false ∧ completion = none ∨
      released = true ∧ ∃ current finished, Releases document env lease current finished edited ∧
        (completion.isSome = true → Attests document env lease current.name) := by
  unfold releaseTurn at hok
  split at hok
  · cases hok
    exact .inl ⟨rfl, rfl, rfl⟩
  next current hcurrent =>
    split at hok
    · cases hok
      exact .inl ⟨rfl, rfl, rfl⟩
    next hsame =>
      simp only [not_or, not_not] at hsame
      obtain ⟨hrecord, hbirth, hgeneration⟩ := hsame
      simp only [bind_eq_ok] at hok
      obtain ⟨read, -, turn, -, hok⟩ := hok
      split at hok
      · cases hok
        exact .inl ⟨rfl, rfl, rfl⟩
      · simp only [do_eq_ok] at hok
        obtain ⟨claimed, hclaimed, answer, hanswer, finished, hfinished, rfl, rfl, rfl⟩ := hok
        have hname := hwf.rowNames _ _ hcurrent
        have hidentity : finished.SameIdentity current :=
          Thread.sameIdentity_of_make hfinished rfl rfl
        rw [Thread.make_eq_ok] at hfinished
        refine .inr ⟨rfl, current, finished, ⟨?_, ?_, ?_, hidentity, ?_, ?_, ?_⟩, ?_⟩
        · rw [hname]
          exact hcurrent
        · rw [Thread.turnIdentity, TurnLeaseFence.identity, hbirth, hgeneration]
        · exact executing_eq_true hrecord
        · rw [hfinished]
        · rw [Thread.executing, hfinished]
          rfl
        · rw [hname]
        · intro hsome
          obtain ⟨fence, rfl⟩ := Option.isSome_iff_exists.mp hsome
          rw [hname]
          exact completedTurn_attests hclaimed hanswer

/-- A released lease is written down once its turn is idle. -/
theorem Fenced.releasing (hfenced : registry.Fenced) (hissued : lease ∈ registry.issued)
    (hidle : ∀ name thread, registry.document.threads.get? name = some thread →
      thread.turnIdentity = lease.identity → thread.executing = false)
    (hfirst : ∀ earlier ∈ registry.released, lease.identity ≠ earlier.identity) :
    ({ registry with released := lease :: registry.released } : TurnRegistry).Fenced :=
  { hfenced with
    issued := List.forall_mem_cons.mpr ⟨hissued, hfenced.issued⟩
    idle := List.forall_mem_cons.mpr ⟨hidle, hfenced.idle⟩
    once := List.pairwise_cons.mpr ⟨hfirst, hfenced.once⟩ }

theorem Fenced.release {answer : Bool × Option TurnLeaseFence} (hfenced : registry.Fenced)
    (hissued : lease ∈ registry.issued) (hok : registry.release env lease = .ok (next, answer))
    : next.Fenced := by
  simp only [TurnRegistry.release, do_eq_ok, Prod.exists] at hok
  obtain ⟨edited, released, completion, hrelease, rfl, -⟩ := hok
  have hperform : RegistryOp.perform (registry.reading env, .releaseTurn lease)
      registry.document = .ok edited := map_eq_ok.mpr ⟨_, hrelease, rfl⟩
  rcases releaseTurn_cases hfenced.wellFormed hrelease with
    ⟨-, rfl, -⟩ | ⟨rfl, current, finished, hreleases, -⟩
  · exact hfenced
  · have hthreads : edited.threads = registry.document.threads.set current.name finished := by
      rw [hreleases.eq, ← hreleases.same.1]
      rfl
    have hclaims : edited.claims = registry.document.claims := by
      rw [hreleases.eq]
      rfl
    have hturns : TurnsFrom registry.Outruns registry.document edited := by
      refine TurnsFrom.of_set hthreads (.inl ⟨current.name, current, hreleases.row, ?_, ?_⟩)
      · rw [Thread.turnIdentity, Thread.turnIdentity, hreleases.same.2, hreleases.generation]
      · exact .inr hreleases.idle
    have hwf := (RegistryOp.perform_evolves hfenced.wellFormed hperform).wellFormed
    have hstep : ({ registry with
        document := edited
        files := registry.withoutClaim lease.identity } : TurnRegistry).Fenced := by
      refine hfenced.of_turnsFrom hwf hturns fun held hheld hfile => ?_
      obtain ⟨hbefore, hother⟩ := heldBy_of_mapValues hfile
      refine live_of_set hthreads hclaims (hfenced.live held hheld hbefore) ?_
      intro thread hget hidentity
      cases hreleases.row.symm.trans hget
      exact absurd (hidentity.symm.trans hreleases.identity) hother
    refine hstep.releasing hissued ?_ ?_
    · intro name thread hget hidentity
      rw [hthreads] at hget
      rcases Dict.get?_set_eq_some.mp hget with ⟨-, rfl⟩ | ⟨hname, hget⟩
      · exact hreleases.idle
      · have hbirth : thread.birth = current.birth :=
          (Prod.mk.inj (hidentity.trans hreleases.identity.symm)).1
        exact absurd (hfenced.row_unique hget hreleases.row hbirth).1 hname
    · intro earlier hearlier hsame
      have hidle := hfenced.idle earlier hearlier current.name current hreleases.row
        (hreleases.identity.trans hsame)
      rw [hreleases.live] at hidle
      cases hidle

/-- A phase change alters the file only while the lease's turn is named and held. -/
theorem changePhase_cases (hok : registry.changePhase lease phase native = .ok next) :
    next = registry ∨ registry.document.holdsTurn lease = true ∧
      ∃ file, registry.files.get? lease.identity = some file ∧ file.active.heldBy lease = true ∧
        next = { registry with
          files := registry.files.set lease.identity (file.entering phase native) } := by
  unfold TurnRegistry.changePhase at hok
  split at hok
  next hnamed =>
    simp only [TurnRegistry.read, do_eq_ok] at hok
    obtain ⟨file, hfile, rfl⟩ := hok
    split
    next hheld => exact .inr ⟨hnamed, file, hfile, hheld, rfl⟩
    · exact .inl rfl
  · cases hok
    exact .inl rfl

/-- What an event does: nothing, an operation, a lease, a release, or fewer held files. -/
inductive Change (registry : TurnRegistry) : TurnEvent → TurnRegistry → Prop
  | kept {event : TurnEvent} : Change registry event registry
  | edited {env : Environment} {op : RegistryOp} {next : TurnRegistry}
      (hop : op.changesTurn = false) (hok : registry.edit env op = .ok next) :
      Change registry (.edit env op) next
  | leased {event : TurnEvent} {env : Environment} {name : Name} {turnId : String}
      {leased : TurnRegistry} {lease : TurnLeaseFence} {files : TurnFiles}
      (hok : registry.leaseRetained env name turnId = .ok (leased, lease))
      (hfiles : ∀ held, HeldBy files held → HeldBy leased.files held) :
      Change registry event { leased with files := files }
  | released {event : TurnEvent} {env : Environment} {lease : TurnLeaseFence}
      {next : TurnRegistry} {answer : Bool × Option TurnLeaseFence}
      (hissued : lease ∈ registry.issued) (hok : registry.release env lease = .ok (next, answer)) :
      Change registry event next
  | files {event : TurnEvent} {files : TurnFiles}
      (hfiles : ∀ lease ∈ registry.issued, HeldBy files lease → HeldBy registry.files lease) :
      Change registry event { registry with files := files }

theorem Fenced.change (hfenced : registry.Fenced)
    (hok : TurnRegistry.step event registry = .ok next) : Change registry event next := by
  cases event with
  | edit =>
    simp only [TurnRegistry.step] at hok
    split at hok
    · cases hok
      exact .kept
    next hop => exact .edited (Bool.not_eq_true _ ▸ hop) hok
  | lease =>
    simp only [TurnRegistry.step, TurnRegistry.lease, do_eq_ok, Prod.exists] at hok
    obtain ⟨leased, lease, hlease, rfl⟩ := hok
    unfold TurnRegistry.retire
    split
    · exact .leased hlease fun _ => id
    · refine .leased hlease fun held hheld => ?_
      obtain ⟨file, hget, hfile⟩ := hheld
      exact ⟨file, (Dict.get?_erase_eq_some.mp hget).2, hfile⟩
  | release =>
    simp only [TurnRegistry.step] at hok
    split at hok
    next hissued =>
      obtain ⟨⟨_, answer⟩, hrelease, rfl⟩ := map_eq_ok.mp hok
      exact .released hissued hrelease
    · cases hok
      exact .kept
  | phase =>
    simp only [TurnRegistry.step] at hok
    split at hok
    · rcases changePhase_cases hok with rfl | ⟨-, file, hfile, -, rfl⟩
      · exact .kept
      · refine .files fun held _ hheld => ?_
        obtain ⟨stored, hget, hstored⟩ := hheld
        rcases Dict.get?_set_eq_some.mp hget with ⟨hsame, rfl⟩ | ⟨-, hget⟩
        · exact ⟨file, hsame ▸ hfile, hstored⟩
        · exact ⟨stored, hget, hstored⟩
    · cases hok
      exact .kept
  | dropped =>
    cases hok
    split
    · exact .files fun lease _ hheld => (heldBy_of_mapValues hheld).1
    · exact .kept
  | unsaved =>
    simp only [TurnRegistry.step, do_eq_ok, Prod.exists] at hok
    obtain ⟨document, file, lease, hbegin, rfl⟩ := hok
    obtain ⟨current, leased, hbegins⟩ := begin_begins hfenced.wellFormed hbegin
    exact .files fun earlier hearlier hheld => hbegins.heldBy_set hfenced hearlier hheld
  | retained =>
    obtain ⟨⟨_, lease⟩, hlease, rfl⟩ := map_eq_ok.mp hok
    exact .leased hlease fun _ => id

/-- Every event that meets the condition keeps the invariant. -/
theorem Fenced.step (hfenced : registry.Fenced) (hmeets : registry.Meets event)
    (hok : TurnRegistry.step event registry = .ok next) : next.Fenced := by
  cases hfenced.change hok with
  | kept => exact hfenced
  | edited hop hedit => exact hfenced.edit hop hmeets hedit
  | leased hlease hfiles => exact (hfenced.leaseRetained hlease).files fun held _ => hfiles held
  | released hissued hrelease => exact hfenced.release hissued hrelease
  | files hfiles => exact hfenced.files hfiles

theorem fenced_empty : empty.Fenced where
  wellFormed := wellFormed_empty
  bound := by
    intro name thread hget
    cases hget
  outruns := by
    intro name thread hget
    cases hget
  increasing := .nil
  issued := by simp [empty]
  idle := by simp [empty]
  once := .nil
  live := by simp [empty]

theorem reached_fenced {events : List TurnEvent} (hmeets : Along Meets step events empty) :
    (reached events).Fenced :=
  run_invariant_along Fenced (fun _ _ _ hfenced hevent hok => hfenced.step hevent hok) events
    fenced_empty hmeets

/-! ### Claims since a lease was issued -/

/-- An event leaves the document or operates on it, and issues a lease only under the claim
of its thread. -/
theorem Fenced.step_claims (hfenced : registry.Fenced) (hmeets : registry.Meets event)
    (hok : TurnRegistry.step event registry = .ok next) :
    (next.document = registry.document ∨
      ∃ op, RegistryOp.perform op registry.document = .ok next.document) ∧
    ∀ lease ∈ next.issued, lease ∈ registry.issued ∨
      next.document.Held .claim lease.birth lease.claimedGeneration := by
  cases hfenced.change hok with
  | kept | files => exact ⟨.inl rfl, fun _ => .inl⟩
  | edited hop hedit =>
    simp only [TurnRegistry.edit, do_eq_ok] at hedit
    obtain ⟨edited, hedited, -, -, rfl⟩ := hedit
    have hbound := hfenced.bound_of_perform hop hmeets hedited
    exact ⟨.inr ⟨_, hbound.bound_eq.symm ▸ hedited⟩, fun _ => .inl⟩
  | leased hlease =>
    simp only [TurnRegistry.leaseRetained, do_eq_ok, Prod.exists] at hlease
    obtain ⟨document, file, lease, hbegin, rfl, rfl⟩ := hlease
    obtain ⟨current, leased, hbegins⟩ := begin_begins hfenced.wellFormed hbegin
    refine ⟨.inr ⟨_, perform_of_begin hbegin⟩, List.forall_mem_cons.mpr ⟨.inr ?_, fun _ => .inl⟩⟩
    refine ⟨current.name, ?_, ?_⟩
    · rw [hbegins.threads_eq, Dict.get?_set_self, Option.map_some]
      exact congrArg some (Prod.mk.inj hbegins.identity).1.symm
    · show document.claims.generations.get? _ = _
      rw [hbegins.claims_eq]
      exact hbegins.claim
  | @released _ env lease _ _ _ hrelease =>
    simp only [TurnRegistry.release, do_eq_ok, Prod.exists] at hrelease
    obtain ⟨edited, released, completion, hrelease, rfl, -⟩ := hrelease
    split
    · exact ⟨.inr ⟨(registry.reading env, .releaseTurn lease), map_eq_ok.mpr ⟨_, hrelease, rfl⟩⟩,
        fun _ => .inl⟩
    · exact ⟨.inl rfl, fun _ => .inl⟩

theorem run_succeeds {events : List TurnEvent} (hfenced : registry.Fenced)
    (hmeets : Along Meets step events registry) :
    Succeeds .claim registry.document (run step events registry).document := by
  refine (run_invariant_along (fun reached : TurnRegistry =>
      reached.Fenced ∧ Succeeds .claim registry.document reached.document)
    (fun event before after hbefore hevent hok => ⟨?_, ?_⟩) events
    ⟨hfenced, .refl .claim registry.document⟩ hmeets).2
  · exact hbefore.1.step hevent hok
  · rcases (hbefore.1.step_claims hevent hok).1 with hsame | ⟨op, hperform⟩
    · rw [hsame]
      exact hbefore.2
    · exact hbefore.2.trans (perform_succeeds hbefore.1.wellFormed hperform .claim)

def IssuedBy (first : List TurnEvent) (event : TurnEvent) (lease : TurnLeaseFence) : Prop :=
  lease ∉ (reached first).issued ∧ lease ∈ (reached (first ++ [event])).issued

/-- No claim of the lease's thread was advanced since the lease was issued. -/
def ClaimKept (first : List TurnEvent) (event : TurnEvent) (rest : List TurnEvent)
    (lease : TurnLeaseFence) : Prop :=
  ∀ between, between <+: rest →
    (reached (first ++ [event] ++ between)).document.Held .claim lease.birth
      lease.claimedGeneration

theorem reached_append (first rest : List TurnEvent) :
    reached (first ++ rest) = run step rest (reached first) :=
  run_append step first rest empty

/-- A claim that is the lease's now has been so since the lease was issued. -/
theorem claimKept_of_held {first rest : List TurnEvent}
    (hmeets : Along Meets step (first ++ [event] ++ rest) empty)
    (hissued : IssuedBy first event lease)
    (hheld : (reached (first ++ [event] ++ rest)).document.Held .claim lease.birth
      lease.claimedGeneration) : ClaimKept first event rest lease := by
  rintro between ⟨last, rfl⟩
  rw [← List.append_assoc] at hmeets hheld
  obtain ⟨hmeets, hlast⟩ := along_append.mp hmeets
  obtain ⟨hmeets, hbetween⟩ := along_append.mp hmeets
  obtain ⟨hfirst, hevent⟩ := along_append.mp hmeets
  have hbefore := reached_fenced hfirst
  have hstart := reached_fenced hmeets
  -- the lease was issued with the claim of its thread
  have hgranted : (reached (first ++ [event])).document.Held .claim lease.birth
      lease.claimedGeneration := by
    have hafter := hissued.2
    rw [reached_append] at hafter ⊢
    rcases commit_cases (step event) (reached first) with hok | hkeep
    · exact ((hbefore.step_claims hevent.1 hok).2 lease hafter).resolve_left hissued.1
    · rw [run_cons, run_nil, hkeep] at hafter
      exact absurd hafter hissued.1
  have hmiddle := run_succeeds hstart hbetween
  have hfinal := run_succeeds (reached_fenced (along_append.mpr ⟨hmeets, hbetween⟩)) hlast
  rw [← reached_append] at hmiddle hfinal
  rcases hfinal.held _ _ hheld with hkept | hfresh
  · exact hkept
  · -- a later generation lies above the counter the lease was issued under
    have hle := hgranted.le_counter.trans hmiddle.counter_le
    exact absurd hfresh (not_lt.mpr hle)

theorem held_of_live (hlive : document.Live lease)
    : document.Held .claim lease.birth lease.claimedGeneration := by
  obtain ⟨name, thread, hget, hidentity, -, hclaim⟩ := hlive
  refine ⟨name, ?_, hclaim⟩
  rw [hget, Option.map_some]
  exact congrArg some (Prod.mk.inj hidentity).1

end TurnRegistry

open TurnRegistry

/-- **Turn leases are fenced** in every run that hands back no old turn. No lease is
released twice; the leases of a birth have increasing generations; a completion attests
that since its lease was issued no claim was advanced and no later lease issued, and that
the thread is active; a phase change alters the file of the live turn only, under the
claim the lease was issued with. -/
theorem turn_leases_are_fenced (events : List TurnEvent)
    (hmeets : Along Meets TurnRegistry.step events TurnRegistry.empty) :
    ((TurnRegistry.reached events).released.map TurnLeaseFence.identity).Nodup ∧
    ((TurnRegistry.reached events).issued.Pairwise fun later earlier =>
      later.birth = earlier.birth → earlier.generation < later.generation) ∧
    ∀ first event rest lease, events = first ++ [event] ++ rest → IssuedBy first event lease →
      (∀ env edited released fence,
        (TurnRegistry.reached events).document.releaseTurn
          ((TurnRegistry.reached events).reading env) lease = .ok (edited, released, some fence) →
        ClaimKept first event rest lease ∧
        (∀ later ∈ (TurnRegistry.reached events).issued, later.birth = lease.birth →
          later.generation ≤ lease.generation) ∧
        ∃ name thread, (TurnRegistry.reached events).document.threads.get? name = some thread ∧
          thread.turnIdentity = lease.identity ∧
          Attests (TurnRegistry.reached events).document
            ((TurnRegistry.reached events).reading env) lease name) ∧
      ∀ phase native next,
        TurnRegistry.step (.phase lease phase native) (TurnRegistry.reached events) = .ok next →
        next.files ≠ (TurnRegistry.reached events).files →
        (TurnRegistry.reached events).document.holdsTurn lease = true ∧
          (TurnRegistry.reached events).document.Live lease ∧
          ClaimKept first event rest lease := by
  have hfenced := reached_fenced hmeets
  refine ⟨?_, hfenced.increasing, ?_⟩
  · rw [List.Nodup, List.pairwise_map]
    exact hfenced.once
  · rintro first event rest lease rfl hissued
    refine ⟨?_, ?_⟩
    · intro env edited released fence hrelease
      rcases releaseTurn_cases hfenced.wellFormed hrelease with
        ⟨-, -, habsurd⟩ | ⟨-, current, finished, hreleases, hattests⟩
      · cases habsurd
      · have hattested := hattests rfl
        have hidentity := Prod.mk.inj hreleases.identity
        refine ⟨?_, ?_, current.name, current, hreleases.row, hreleases.identity, hattested⟩
        · apply claimKept_of_held hmeets hissued
          refine ⟨current.name, ?_, hattested.1⟩
          rw [hreleases.row, Option.map_some]
          exact congrArg some hidentity.1
        · intro later hlater hbirth
          have hle := hfenced.outruns current.name current hreleases.row later hlater
            (hbirth.trans hidentity.1.symm)
          rw [hidentity.2] at hle
          exact hle
    · intro phase native next hstep haltered
      -- a phase change that altered a file was made for the live turn
      simp only [TurnRegistry.step] at hstep
      split at hstep
      next hlease =>
        rcases changePhase_cases hstep with rfl | ⟨hnamed, file, hfile, hheld, -⟩
        · exact absurd rfl haltered
        · have hlive := hfenced.live lease hlease ⟨file, hfile, hheld⟩
          exact ⟨hnamed, hlive, claimKept_of_held hmeets hissued (held_of_live hlive)⟩
      · cases hstep
        exact absurd rfl haltered

/-! ### A turn that recurs -/

def ownerFields : ThreadFields where
  name := "w"
  tags := ∅
  createdAt := .recorded 1
  execution := .native
  parent := none
  processIdentity := .process 1 1
  role := .agent
  turnRecord := .noTurnRecord
  channelScopeGeneration := 0
  turnGeneration := 0
  projectResumeDue := false
  offered := .unobserved
  offeredBeforeRestart := .unobserved

def ownerEnvironment : Environment where
  now := 0
  currentProcess := .process 1 1
  processAlive := fun _ _ => true
  readTurn := fun _ _ => .ok none
  lastWritten := fun _ => 0

def registerOwner : List TurnEvent :=
  (Thread.make ownerFields).toOption.toList.map fun thread =>
    .edit ownerEnvironment (.register thread .process true)

/-- Restore a thread from the snapshot that was taken of an earlier registry. -/
def restoreFrom (saved : TurnRegistry) : List TurnEvent :=
  saved.document.capture.toOption.toList.map fun source =>
    .edit ownerEnvironment (.restoreStopped source ["w"])

/-- A turn is leased and the thread removed between a snapshot and the restoration from
it; the restored thread registers its process again. -/
def restoredRun : List TurnEvent :=
  registerOwner ++ [.lease ownerEnvironment "w" "t1", .edit ownerEnvironment (.remove "w")] ++
    restoreFrom (TurnRegistry.reached registerOwner) ++ registerOwner ++
    [.lease ownerEnvironment "w" "t2"]

/-- The restored thread has the birth and the turn generation of the snapshot, so its next
lease has the generation of the lease before. -/
theorem restored_generation_recurs :
    (TurnRegistry.reached restoredRun).issued.map TurnLeaseFence.identity = [(1, 1), (1, 1)] := by
  decide +kernel

def servedRun : List TurnEvent :=
  registerOwner ++ [.lease ownerEnvironment "w" "t1",
    .phase ⟨"w", 1, 1, "t1", 1⟩ (.modelWait "") false,
    .release ownerEnvironment ⟨"w", 1, 1, "t1", 1⟩,
    .release ownerEnvironment ⟨"w", 1, 1, "t1", 1⟩]

theorem turn_leases_are_fenced_served :
    (TurnRegistry.reached servedRun).released = [⟨"w", 1, 1, "t1", 1⟩] ∧
      ((TurnRegistry.reached servedRun).released.map TurnLeaseFence.identity).Nodup :=
  ⟨by decide +kernel, (turn_leases_are_fenced servedRun (by decide +kernel)).1⟩

end AgentComms.Registry
