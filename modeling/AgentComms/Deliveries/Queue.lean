import AgentComms.Deliveries.Held

/-!
# Rows and queues

How the input rows, the live queues and a running recovery of an owner fit together: each
item of a process has its own row, only a queued item can be bound, and what a recovery
watches is neither queued nor bound.
-/

namespace AgentComms.Deliveries

open Library Coordination Inputs Relation

variable {Digest : Type} {setting : Setting Digest}
  {world world' : World Digest} {owner : ThreadLookup} {op : DeliveryOp} {key : InputKey}
  {inputs inputs' : InputFile Digest} {session : Session}

/-! ### Rows -/

def Owned (setting : Setting Digest) (inputs : InputFile Digest)
    (owner : ThreadLookup) (key : InputKey) : Prop :=
  ∃ row, inputs.lookup key = some row ∧ setting.resolve row.owner = some owner

def Unbound (setting : Setting Digest) (inputs : InputFile Digest)
    (owner : ThreadLookup) (key : InputKey) : Prop :=
  ∃ row, inputs.lookup key = some row ∧ setting.resolve row.owner = some owner ∧
    row.state.binding = none

/-- Every row is stored under the key of its message and its owner, and none is cleared
unsent. -/
def Attributed (setting : Setting Digest) (inputs : InputFile Digest) : Prop :=
  ∀ {k row}, inputs.lookup k = some row → row.state ≠ .clearedUnsent ∧
    ∀ {rootId reference owner}, row.origin = .wire rootId reference →
      setting.resolve row.owner = some owner → k = setting.busKey owner reference

theorem Unbound.owned (hunbound : Unbound setting inputs owner key) :
    Owned setting inputs owner key := by
  obtain ⟨row, hrow, howner, -⟩ := hunbound
  exact ⟨row, hrow, howner⟩

theorem Owned.unique (howned : Owned setting inputs owner key) {other : ThreadLookup}
    (hother : Owned setting inputs other key) : owner = other := by
  obtain ⟨row, hrow, howner⟩ := howned
  obtain ⟨row', hrow', howner'⟩ := hother
  obtain rfl := Option.mem_unique hrow hrow'
  exact Option.mem_unique howner howner'

variable {bound : InputKey → Prop}

theorem Owned.kept (hkept : RowsKept bound inputs inputs') (howned : Owned setting inputs owner key) :
    Owned setting inputs' owner key := by
  obtain ⟨row, hrow, howner⟩ := howned
  obtain ⟨row', hrow', horiginal, -⟩ := hkept _ _ hrow
  refine ⟨row', hrow', ?_⟩
  rwa [show row'.owner = row.owner from congrArg (·.owner) horiginal]

theorem Unbound.kept (hkept : RowsKept bound inputs inputs')
    (hunbound : Unbound setting inputs owner key) (hfree : ¬ bound key) :
    Unbound setting inputs' owner key := by
  obtain ⟨row, hrow, howner, hnone⟩ := hunbound
  obtain ⟨row', hrow', horiginal, -, hbinding⟩ := hkept _ _ hrow
  refine ⟨row', hrow', ?_, (hbinding hnone).resolve_left hfree⟩
  rwa [show row'.owner = row.owner from congrArg (·.owner) horiginal]

theorem Attributed.moved (hmove : RowsMove bound inputs inputs')
    (hattributed : Attributed setting inputs) : Attributed setting inputs' := by
  intro k row' hrow'
  obtain ⟨row, hrow⟩ := hmove.known hrow'
  obtain ⟨found, hfound, horiginal, hcleared, -⟩ := hmove.kept _ _ hrow
  obtain rfl := Option.mem_unique hfound hrow'
  obtain ⟨hstate, hkey⟩ := hattributed hrow
  refine ⟨hcleared hstate, fun {rootId reference owner} horigin howner => ?_⟩
  have horigin' : row.origin = .wire rootId reference :=
    (congrArg (·.origin) horiginal).symm.trans horigin
  refine hkey horigin' ?_
  rwa [← show found.owner = row.owner from congrArg (·.owner) horiginal]

theorem RowsKept.of_fresh {row : StoredInput InputOrigin Digest} (hfree : inputs.lookup key = none)
    (hinputs : ∀ k, inputs'.lookup k = if k = key then some row else inputs.lookup k) :
    RowsKept bound inputs inputs' := by
  intro k stored hget
  refine ⟨stored, ?_, rfl, id, .inr⟩
  rw [hinputs, if_neg, hget]
  rintro rfl
  rw [hfree] at hget
  cases hget

/-! ### The queue of an owner -/

namespace Recovery

def references : Recovery → List MessageReference
  | started => []
  | read rows => rows.map Prod.fst
  | selected rows assignments => rows.map Prod.fst ++ assignments.map WakeAssignment.source
  | settled assignments => assignments.map WakeAssignment.source

def assignments : Recovery → List WakeAssignment
  | started | read _ => []
  | selected _ assignments | settled assignments => assignments

end Recovery

structure Orderly (setting : Setting Digest) (inputs : InputFile Digest)
    (owner : ThreadLookup) (session : Session) : Prop where
  nodup : (session.items.map Item.key).Nodup
  keyed : ∀ item ∈ session.items, item.key = setting.busKey owner item.assignment.source
  owned : ∀ item ∈ session.items, Owned setting inputs owner item.key
  /-- A reservation runs under the lock, and its row cannot be bound yet. -/
  reserving : ∀ item ∈ session.items, item.phase.reserving = true →
    session.lock = .delivering ∧ Unbound setting inputs owner item.key
  retired : ∀ item ∈ session.items, item.phase = .retired →
    Unbound setting inputs owner item.key
  live : ∀ {rootId live recovery}, session.lock = .recovering rootId live recovery →
    ∀ item ∈ session.items, item.phase = .queued → item.key ∈ live
  watched : ∀ {rootId live recovery}, session.lock = .recovering rootId live recovery →
    ∀ reference ∈ recovery.references,
      Unbound setting inputs owner (setting.busKey owner reference) ∧
        setting.busKey owner reference ∉ live
  selected : ∀ {rootId live recovery}, session.lock = .recovering rootId live recovery →
    ∀ claim ∈ recovery.assignments, claim.recipientLookup = owner ∧
      claim.source ∈ recovery.references

namespace Orderly

theorem fresh : Orderly setting inputs owner .fresh where
  nodup := List.nodup_nil
  keyed := by rintro _ ⟨⟩
  owned := by rintro _ ⟨⟩
  reserving := by rintro _ ⟨⟩
  retired := by rintro _ ⟨⟩
  live := by rintro _ _ _ ⟨⟩
  watched := by rintro _ _ _ ⟨⟩
  selected := by rintro _ _ _ ⟨⟩

variable (horderly : Orderly setting inputs owner session)
include horderly

theorem eq_of_key {item other : Item}
    (hitem : item ∈ session.items) (hother : other ∈ session.items) (hkey : item.key = other.key) :
    item = other := List.inj_on_of_nodup_map horderly.nodup hitem hother hkey

/-- Binding a queued row, or one of another owner, leaves the session orderly. -/
theorem kept (hkept : RowsKept bound inputs inputs')
    (hbound : ∀ k, bound k → (∃ item ∈ session.items, item.key = k ∧ item.phase = .queued) ∨
      ¬ Owned setting inputs owner k) : Orderly setting inputs' owner session := by
  refine { horderly with
    owned := fun item hitem => (horderly.owned item hitem).kept hkept
    reserving := ?_, retired := ?_, watched := ?_ }
  · intro item hitem hreserving
    obtain ⟨hlock, hunbound⟩ := horderly.reserving item hitem hreserving
    refine ⟨hlock, hunbound.kept hkept fun hkey => ?_⟩
    rcases hbound _ hkey with ⟨queued, hqueued, hsame, hphase⟩ | hfree
    · rw [horderly.eq_of_key hqueued hitem hsame] at hphase
      rw [hphase] at hreserving
      cases hreserving
    · exact hfree hunbound.owned
  · intro item hitem hretired
    have hunbound := horderly.retired item hitem hretired
    refine hunbound.kept hkept fun hkey => ?_
    rcases hbound _ hkey with ⟨queued, hqueued, hsame, hphase⟩ | hfree
    · rw [horderly.eq_of_key hqueued hitem hsame, hretired] at hphase
      cases hphase
    · exact hfree hunbound.owned
  · intro rootId live recovery hlock reference hreference
    obtain ⟨hunbound, hlive⟩ := horderly.watched hlock reference hreference
    refine ⟨hunbound.kept hkept fun hkey => ?_, hlive⟩
    rcases hbound _ hkey with ⟨queued, hqueued, hsame, hphase⟩ | hfree
    · exact hlive (hsame ▸ horderly.live hlock queued hqueued hphase)
    · exact hfree hunbound.owned

omit horderly in
theorem of_items {items : List Item} {lock : QueueLock} {reads : List WakeAssignment}
    (hnodup : (items.map Item.key).Nodup)
    (hitems : ∀ item ∈ items, item.key = setting.busKey owner item.assignment.source ∧
      Owned setting inputs owner item.key ∧
      (item.phase.reserving = true → lock = .delivering ∧ Unbound setting inputs owner item.key) ∧
      (item.phase = .retired → Unbound setting inputs owner item.key))
    (hlock : ∀ rootId live recovery, lock ≠ .recovering rootId live recovery) :
    Orderly setting inputs owner ⟨lock, reads, items⟩ where
  nodup := hnodup
  keyed := fun item hitem => (hitems item hitem).1
  owned := fun item hitem => (hitems item hitem).2.1
  reserving := fun item hitem => (hitems item hitem).2.2.1
  retired := fun item hitem => (hitems item hitem).2.2.2
  live := fun hrecovering => absurd hrecovering (hlock _ _ _)
  watched := fun hrecovering => absurd hrecovering (hlock _ _ _)
  selected := fun hrecovering => absurd hrecovering (hlock _ _ _)

/-- Items may go, and new ones may come that are not queued. -/
theorem update {items : List Item} (hnodup : (items.map Item.key).Nodup)
    (hitems : ∀ item ∈ items, item ∈ session.items ∨
      item.key = setting.busKey owner item.assignment.source ∧
        Owned setting inputs owner item.key ∧ item.phase ≠ .queued ∧
        (item.phase.reserving = true →
          session.lock = .delivering ∧ Unbound setting inputs owner item.key) ∧
        (item.phase = .retired → Unbound setting inputs owner item.key)) :
    Orderly setting inputs owner { session with items } where
  nodup := hnodup
  keyed item hitem := (hitems item hitem).elim (horderly.keyed item) fun hnew => hnew.1
  owned item hitem := (hitems item hitem).elim (horderly.owned item) fun hnew => hnew.2.1
  reserving item hitem :=
    (hitems item hitem).elim (horderly.reserving item) fun hnew => hnew.2.2.2.1
  retired item hitem := (hitems item hitem).elim (horderly.retired item) fun hnew => hnew.2.2.2.2
  live := by
    intro rootId live recovery hlock item hitem hphase
    rcases hitems item hitem with hold | hnew
    · exact horderly.live hlock item hold hphase
    · exact absurd hphase hnew.2.2.1
  watched := horderly.watched
  selected := horderly.selected

/-- With no recovery, a session whose reservations are over may change its lock. -/
theorem relock {lock : QueueLock} (hbusy : session.lock ≠ .delivering)
    (hlock : ∀ rootId live recovery, lock ≠ .recovering rootId live recovery) :
    Orderly setting inputs owner { session with lock } := by
  refine of_items horderly.nodup (fun item hitem => ⟨horderly.keyed item hitem,
    horderly.owned item hitem, fun hreserving => ?_, horderly.retired item hitem⟩) hlock
  exact absurd (horderly.reserving item hitem hreserving).1 hbusy

/-- A recovery moves on, watching messages of unbound rows outside the live queue. -/
theorem recover {rootId : String}
    {live : List InputKey} {recovery : Recovery} (hbusy : session.lock ≠ .delivering)
    (hlive : ∀ item ∈ session.items, item.phase = .queued → item.key ∈ live)
    (hwatched : ∀ reference ∈ recovery.references,
      Unbound setting inputs owner (setting.busKey owner reference) ∧
        setting.busKey owner reference ∉ live)
    (hselected : ∀ claim ∈ recovery.assignments, claim.recipientLookup = owner ∧
      claim.source ∈ recovery.references) :
    Orderly setting inputs owner { session with lock := .recovering rootId live recovery } := by
  refine { horderly with
    reserving := fun item hitem hreserving =>
      absurd (horderly.reserving item hitem hreserving).1 hbusy
    live := ?_, watched := ?_, selected := ?_ } <;> rintro _ _ _ ⟨⟩
  · exact hlive
  · exact hwatched
  · exact hselected

end Orderly

theorem mem_recoverable {rows : List (MessageReference × InputKey)} {claim : WakeAssignment} :
    claim ∈ world.recoverable owner rows ↔
      world.coordinator.store.wakeClaims.get? claim.assignmentId = some claim ∧
        claim.recipientLookup = owner ∧ claim.lifecycle.isDeferredUnbound = true ∧
        world.coordinator.hasNativeSource claim.assignmentId = false ∧
          claim.source ∈ rows.map Prod.fst := by
  rw [World.recoverable, List.mem_filter, Table.mem_values, Bool.and_eq_true, Bool.and_eq_true,
    Bool.and_eq_true, beq_iff_eq, Bool.not_eq_true', List.any_eq_true, List.mem_map, and_assoc,
    and_assoc]
  simp only [beq_iff_eq]
  rfl

theorem Session.move_keys (session : Session) (key : InputKey) (claim : WakeAssignment)
    (phase : Phase) : (session.move key claim phase).items.map Item.key =
      session.items.map Item.key := by
  rw [Session.move, List.map_map]
  apply List.map_congr_left
  intro item _
  rw [Function.comp_apply]
  split <;> rfl

theorem placeItems_keys (count : Nat) (items : List Item) :
    (World.placeItems count items).map Item.key = items.map Item.key := by
  have hpairs := forall₂_placeItems count items
  generalize World.placeItems count items = placements at hpairs
  induction hpairs with
  | nil => rfl
  | cons hfirst _ ih => rw [List.map_cons, List.map_cons, hfirst.same.1, ih]

namespace Orderly

theorem reserve (horderly : Orderly setting inputs owner session) {captured : WakeAssignment}
    {row : StoredInput InputOrigin Digest} (hlock : session.lock = .delivering)
    (hfree : inputs.lookup (setting.busKey owner captured.source) = none)
    (howner : setting.resolve row.owner = some owner) (hstate : row.state = .reserved)
    (hinputs : ∀ k, inputs'.lookup k = if k = setting.busKey owner captured.source then some row
      else inputs.lookup k) :
    Orderly setting inputs' owner { session with
      items := ⟨setting.busKey owner captured.source, captured, .reserved⟩ :: session.items } := by
  have hkept : RowsKept (fun _ => False) inputs inputs' := RowsKept.of_fresh hfree hinputs
  have hstored : inputs'.lookup (setting.busKey owner captured.source) = some row := by
    rw [hinputs, if_pos rfl]
  refine (horderly.kept hkept fun _ => False.elim).update ?_ fun item hitem => ?_
  · rw [List.map_cons, List.nodup_cons]
    refine ⟨fun hmem => ?_, horderly.nodup⟩
    -- the key of an item has a row
    obtain ⟨item, hitem, hkey⟩ := List.mem_map.mp hmem
    obtain ⟨stored, hget, -⟩ := horderly.owned item hitem
    rw [hkey, hfree] at hget
    cases hget
  · rcases List.mem_cons.mp hitem with rfl | hold
    · refine .inr ⟨rfl, ⟨row, hstored, howner⟩, by simp, fun _ => ⟨hlock, ?_⟩, by simp⟩
      exact ⟨row, hstored, howner, by rw [hstate]; rfl⟩
    · exact .inl hold

theorem move (horderly : Orderly setting inputs owner session) {item : Item}
    {claim : WakeAssignment} {phase : Phase} (hitem : item ∈ session.items)
    (hsource : claim.source = item.assignment.source)
    (hphase : phase ≠ .queued ∧ (phase.reserving = true → item.phase.reserving = true))
    (hretired : phase = .retired → ∀ row, inputs.lookup item.key = some row →
      row.state.binding = none) :
    Orderly setting inputs owner (session.move item.key claim phase) := by
  refine horderly.update ((session.move_keys item.key claim phase).symm ▸ horderly.nodup)
    fun moved hmem => ?_
  rcases Session.mem_move hmem with ⟨hold, -⟩ | ⟨_, -, -, rfl⟩
  · exact .inl hold
  · have howned := horderly.owned item hitem
    refine .inr ⟨?_, howned, hphase.1, fun hreserving => ?_, fun hphase => ?_⟩
    · rw [hsource]
      exact horderly.keyed item hitem
    · exact horderly.reserving item hitem (hphase.2 hreserving)
    · obtain ⟨row, hrow, howner⟩ := howned
      exact ⟨row, hrow, howner, hretired hphase row hrow⟩

theorem place (horderly : Orderly setting inputs owner session) (count : Nat)
    (hready : ∀ item ∈ session.items, item.phase ≠ .reserved ∧ item.phase ≠ .failing) :
    Orderly setting inputs owner { session with
      lock := .free, items := World.placeItems count session.items } := by
  refine of_items ((placeItems_keys count session.items).symm ▸ horderly.nodup) ?_ (by simp)
  intro placed hmem
  obtain ⟨item, hitem, hplaced⟩ := mem_placeItems hmem
  obtain ⟨hkey, hassignment⟩ := hplaced.same
  rw [hkey, hassignment]
  refine ⟨horderly.keyed item hitem, horderly.owned item hitem, ?_, ?_⟩
  · intro hreserving
    cases hplaced with
    | kept =>
      obtain ⟨hreserved, hfailing⟩ := hready placed hitem
      cases hcase : placed.phase <;> simp_all [Phase.reserving]
    | queued | retiring => cases hreserving
  · intro hretired
    cases hplaced with
    | kept => exact horderly.retired placed hitem hretired
    | queued | retiring => cases hretired

end Orderly

/-- What holds of the rows and of every session in these runs. -/
structure Ordered (setting : Setting Digest) (world : World Digest) : Prop extends
    Grounded world where
  attributed : Attributed setting world.inputs
  orderly : ∀ owner, Orderly setting world.inputs owner (world.sessions owner)

theorem Ordered.empty : Ordered setting (World.empty : World Digest) where
  toGrounded := .empty
  attributed := nofun
  orderly := fun _ => .fresh

variable [DecidableEq Digest]

/-- The rows a recovery reads are unbound rows of its owner's messages. -/
theorem unbound_of_unboundWireInput (hattributed : Attributed setting inputs)
    {rootId : String} {live : List InputKey} {reference : MessageReference}
    (hmem : reference ∈ ((inputs.rows.values.filterMap
      (World.unboundWireInput setting owner rootId)).filter fun row => row.2 ∉ live).map Prod.fst) :
    Unbound setting inputs owner (setting.busKey owner reference) ∧
      setting.busKey owner reference ∉ live := by
  obtain ⟨⟨_, key⟩, hfound, rfl⟩ := List.mem_map.mp hmem
  obtain ⟨hread, hlive⟩ := List.mem_filter.mp hfound
  obtain ⟨row, hrow, hselected⟩ := List.mem_filterMap.mp hread
  obtain ⟨stored, hget⟩ := Dict.mem_values.mp hrow
  have hkey : row.key = stored := InputDocument.key_of_lookup hget
  unfold World.unboundWireInput at hselected
  split at hselected
  next root found horigin =>
    split at hselected
    next hrow =>
      obtain ⟨howner, -, hstate⟩ := hrow
      cases hselected
      obtain ⟨-, hbus⟩ := hattributed hget
      rw [← hbus horigin howner, ← hkey]
      refine ⟨⟨row, hkey ▸ hget, howner, ?_⟩, of_decide_eq_true hlive⟩
      rcases hstate with hstate | hstate <;> rw [hstate] <;> rfl
    · cases hselected
  · cases hselected

/-! ### One step -/

namespace QueueChange

variable {store : Store}

theorem rowsKept (hchange : QueueChange setting op world owner store inputs session) :
    ∃ bound : InputKey → Prop, (∀ k, bound k →
      ∃ item ∈ (world.sessions owner).items, item.key = k ∧ item.phase = .queued) ∧
        RowsKept bound world.inputs inputs := by
  cases hchange with
  | rows bound hbound hmove => exact ⟨bound, hbound, hmove.kept⟩
  | moved _ hmove | dropped _ hmove | rowsSettled _ hmove =>
    exact ⟨fun _ => False, fun _ => False.elim, hmove.kept⟩
  | reserved hlock hread hfree hrow hinputs =>
    exact ⟨fun _ => False, fun _ => False.elim, RowsKept.of_fresh hfree hinputs⟩
  | _ =>
    exact ⟨fun _ => False, fun _ => False.elim, fun _ row hget => ⟨row, hget, rfl, id, .inr⟩⟩

theorem attributed (hchange : QueueChange setting op world owner store inputs session)
    (hattributed : Attributed setting world.inputs) : Attributed setting inputs := by
  cases hchange with
  | rows _ _ hmove | moved _ hmove | dropped _ hmove | rowsSettled _ hmove =>
    exact hattributed.moved hmove
  | @reserved _ captured _ _ hlock hread hfree hrow hinputs =>
    intro k row hget
    rw [hinputs] at hget
    by_cases hk : k = setting.busKey owner captured.source
    · rw [if_pos hk, Option.some.injEq] at hget
      subst hget hk
      obtain ⟨howner, horigin, hstate⟩ := hrow
      refine ⟨by rw [hstate]; simp, fun horigin' howner' => ?_⟩
      rw [horigin] at horigin'
      rw [howner] at howner'
      cases horigin'
      cases howner'
      rfl
    · rw [if_neg hk] at hget
      exact hattributed hget
  | _ => exact hattributed

theorem orderly (hchange : QueueChange setting op world owner store inputs session)
    (hgrounded : Grounded world) (hattributed : Attributed setting world.inputs)
    (horderly : Orderly setting world.inputs owner (world.sessions owner)) :
    Orderly setting inputs owner session := by
  cases hchange with
  | rows bound hbound hmove => exact horderly.kept hmove.kept fun k hk => .inl (hbound k hk)
  | read =>
    exact { horderly with }
  | delivering hlock | recovered _ hlock =>
    refine horderly.relock ?_ (by simp)
    simp [hlock]
  | recovering rootId hlock =>
    refine horderly.recover (by simp [hlock]) ?_ (by rintro _ ⟨⟩) (by rintro _ ⟨⟩)
    intro item hitem hphase
    exact List.mem_map.mpr ⟨item, List.mem_filter.mpr ⟨hitem, decide_eq_true hphase⟩, rfl⟩
  | rowsRead hlock =>
    refine horderly.recover (by simp [hlock]) (horderly.live hlock) ?_ (by rintro _ ⟨⟩)
    exact fun reference hreference => unbound_of_unboundWireInput hattributed hreference
  | claimsRead hlock =>
    refine horderly.recover (by simp [hlock]) (horderly.live hlock) ?_ ?_
    · intro reference hreference
      refine horderly.watched hlock reference ?_
      rcases List.mem_append.mp hreference with hrow | hsource
      · exact hrow
      · obtain ⟨claim, hclaim, rfl⟩ := List.mem_map.mp hsource
        exact (mem_recoverable.mp hclaim).2.2.2.2
    · intro claim hclaim
      obtain ⟨-, hrecipient, -, -, hsource⟩ := mem_recoverable.mp hclaim
      exact ⟨hrecipient, List.mem_append_left _ hsource⟩
  | rowsSettled hlock hmove =>
    have hkept := horderly.kept hmove.kept fun _ => False.elim
    refine hkept.recover (by simp [hlock]) (hkept.live hlock) ?_ ?_
    · intro reference hreference
      obtain ⟨claim, hclaim, rfl⟩ := List.mem_map.mp hreference
      exact hkept.watched hlock _ (hkept.selected hlock claim hclaim).2
    · intro claim hclaim
      exact ⟨(hkept.selected hlock claim hclaim).1, List.mem_map_of_mem hclaim⟩
  | claimRestored hlock =>
    refine horderly.recover (by simp [hlock]) (horderly.live hlock) ?_ ?_
    · intro reference hreference
      exact horderly.watched hlock reference (List.mem_cons_of_mem _ hreference)
    · intro claim hclaim
      exact ⟨(horderly.selected hlock claim (List.mem_cons_of_mem _ hclaim)).1,
        List.mem_map_of_mem hclaim⟩
  | crashed => exact .fresh
  | reserved hlock hread hfree hrow hinputs =>
    exact horderly.reserve hlock hfree hrow.1 hrow.2.2 hinputs
  | moved hitem hmove hclaim hphase hretired =>
    refine (horderly.kept hmove.kept fun _ => False.elim).move hitem ?_ hphase hretired
    rcases hclaim with rfl | ⟨before, -, hstep⟩
    · rfl
    · -- the paused claim is of the message the item was read for
      obtain ⟨-, stored, hstored, hchain⟩ := hgrounded.held (.inr ⟨_, hitem, rfl⟩)
      obtain rfl := Option.mem_unique hstored hstep.stored
      rw [hstep.recipient.2, WakeAssignment.source_of_chain hchain]
  | dropped key hmove =>
    refine (horderly.kept hmove.kept fun _ => False.elim).update ?_ fun item hmem =>
      .inl (Session.mem_drop hmem).1
    exact horderly.nodup.sublist (List.filter_sublist.map _)
  | placed count hlock hready => exact horderly.place count hready

end QueueChange

theorem Ordered.step (hordered : Ordered setting world)
    (hok : World.step setting op world = .ok world') :
    Ordered setting world' := by
  obtain ⟨taker, hqueue, hothers⟩ := (World.changed_of_step hordered.distinct hok).queue
  refine ⟨hordered.toGrounded.step hok, hqueue.attributed hordered.attributed, fun owner => ?_⟩
  by_cases howner : owner = taker
  · subst howner
    exact hqueue.orderly hordered.toGrounded hordered.attributed (hordered.orderly owner)
  · rw [hothers owner howner]
    obtain ⟨bound, hbound, hkept⟩ := hqueue.rowsKept
    refine (hordered.orderly owner).kept hkept fun k hk => .inr fun howned => howner ?_
    obtain ⟨item, hitem, rfl, -⟩ := hbound k hk
    exact howned.unique ((hordered.orderly taker).owned item hitem)

theorem ordered_of_reached (setting : Setting Digest) (ops : List DeliveryOp) :
    Ordered setting (World.reached setting ops) :=
  run_invariant (Ordered setting) (fun _ _ _ hordered hok => hordered.step hok) ops .empty

/-- An input waits once, in one session, for a claim of the session's owner that is stored. -/
theorem input_waits_once (setting : Setting Digest) (ops : List DeliveryOp) (owner : ThreadLookup) :
    let world := World.reached setting ops
    ((world.sessions owner).items.map Item.key).Nodup ∧
      ∀ item ∈ (world.sessions owner).items,
        (∀ other, ∀ found ∈ (world.sessions other).items, found.key = item.key → other = owner) ∧
        item.assignment.recipientLookup = owner ∧
        ∃ stored, world.coordinator.store.wakeClaims.get? item.assignment.assignmentId =
          some stored ∧ ReflTransGen Record.Admits item.assignment stored := by
  have hordered := ordered_of_reached setting ops
  have horderly := hordered.orderly
  refine ⟨(horderly owner).nodup, fun item hitem => ⟨fun other found hfound hkey => ?_,
    hordered.held (.inr ⟨item, hitem, rfl⟩)⟩⟩
  exact ((horderly other).owned found hfound).unique (hkey ▸ (horderly owner).owned item hitem)

end AgentComms.Deliveries
