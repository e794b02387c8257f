import AgentComms.Deliveries.Steps

/-!
# Claims in hand

A process works on claims as it read or paused them, while the stores move on. Whatever a
process holds is an earlier value of the stored claim of its owner.
-/

namespace AgentComms.Deliveries

open Library Coordination Inputs Relation

variable {Digest : Type} {setting : Setting Digest}
  {world world' : World Digest} {owner : ThreadLookup} {op : DeliveryOp}

/-! ### Items -/

inductive Placed : Item → Item → Prop
  | kept (item : Item) (hphase : item.phase ≠ .paused) : Placed item item
  | queued (item : Item) (hphase : item.phase = .paused) :
      Placed item { item with phase := .queued }
  | retiring (item : Item) (hphase : item.phase = .paused) :
      Placed item { item with phase := .retiring }

theorem forall₂_placeItems (count : Nat) (items : List Item) :
    List.Forall₂ Placed items (World.placeItems count items) := by
  induction items generalizing count with
  | nil => exact .nil
  | cons item rest ih =>
    unfold World.placeItems
    split
    next hphase =>
      split
      · exact .cons (.retiring item hphase) (ih 0)
      · exact .cons (.queued item hphase) (ih _)
    next hphase => exact .cons (.kept item hphase) (ih count)

theorem mem_placeItems {count : Nat} {items : List Item} {placed : Item}
    (hmem : placed ∈ World.placeItems count items) : ∃ item ∈ items, Placed item placed := by
  have hpairs := forall₂_placeItems count items
  generalize World.placeItems count items = placements at hmem hpairs
  induction hpairs with
  | nil => cases hmem
  | cons hfirst _ ih =>
    rcases List.mem_cons.mp hmem with rfl | hmem
    · exact ⟨_, List.mem_cons_self, hfirst⟩
    · obtain ⟨item, hitem, hplaced⟩ := ih hmem
      exact ⟨item, List.mem_cons_of_mem _ hitem, hplaced⟩

theorem Placed.same {item placed : Item} (hplaced : Placed item placed) :
    placed.key = item.key ∧ placed.assignment = item.assignment := by
  cases hplaced <;> exact ⟨rfl, rfl⟩

variable {claim : WakeAssignment}

variable {session : Session}

theorem Session.mem_move {key : InputKey}
    {phase : Phase} {item : Item} (hmem : item ∈ (session.move key claim phase).items) :
    item ∈ session.items ∧ item.key ≠ key ∨
      ∃ old ∈ session.items, old.key = key ∧ item = ⟨key, claim, phase⟩ := by
  obtain ⟨old, hold, heq⟩ := List.mem_map.mp hmem
  split at heq
  next hkey =>
    subst hkey
    exact .inr ⟨old, hold, rfl, heq.symm⟩
  next hkey =>
    subst heq
    exact .inl ⟨hold, hkey⟩

theorem Session.mem_drop {key : InputKey} {item : Item}
    (hmem : item ∈ (session.drop key).items) : item ∈ session.items ∧ item.key ≠ key := by
  have hfilter := List.mem_filter.mp hmem
  exact ⟨hfilter.1, of_decide_eq_true hfilter.2⟩

/-! ### The invariant -/

/-- What holds of the claims in every world of these runs. -/
structure Grounded (world : World Digest) : Prop where
  distinct : DistinctClaims world.coordinator.store.wakeClaims
  keys : world.coordinator.store.ForeignKeys
  held : ∀ {owner claim}, world.Holds owner claim → claim.recipientLookup = owner ∧
    ∃ stored, world.coordinator.store.wakeClaims.get? claim.assignmentId = some stored ∧
      ReflTransGen Record.Admits claim stored

theorem Grounded.empty : Grounded (World.empty : World Digest) where
  distinct := nofun
  keys := foreignKeys_reached []
  held := by
    rintro owner claim (hread | ⟨item, hitem, -⟩)
    · cases hread
    · cases hitem

/-! ### What a step adds -/

variable [DecidableEq Digest]

/-- A claim held after a step was held before it, was read in it, or was paused by it. -/
theorem QueueChange.holds {store : Store} {inputs : InputFile Digest}
    (hchange : QueueChange setting op world owner store inputs session)
    (hholds : claim ∈ session.reads ∨ ∃ item ∈ session.items, item.assignment = claim) :
    world.Holds owner claim ∨
      (store = world.coordinator.store ∧ store.wakeClaims.get? claim.assignmentId = some claim ∧
        claim.recipientLookup = owner ∧ claim.lifecycle.selectedPending = true) ∨
      ∃ item ∈ (world.sessions owner).items, ∃ before,
        before.revision = item.assignment.revision ∧
        Store.Stepped world.coordinator.store item.assignment.assignmentId .deferred before claim
          store := by
  cases hchange with
  | rows | delivering | recovering | rowsRead | claimsRead | rowsSettled | claimRestored
  | recovered => exact .inl hholds
  | read hstore hclaims =>
    rcases hholds with hread | hitem
    · rcases List.mem_append.mp hread with hread | hread
      · exact .inl (.inl hread)
      · exact .inr (.inl ⟨hstore, hclaims claim hread⟩)
    · exact .inl (.inr hitem)
  | reserved hlock hread =>
    rcases hholds with hread | ⟨item, hitem, rfl⟩
    · exact .inl (.inl hread)
    · rcases List.mem_cons.mp hitem with rfl | hitem
      · exact .inl (.inl hread)
      · exact .inl (.inr ⟨item, hitem, rfl⟩)
  | @moved _ moving paused _ hmoving hmove hclaim hphase hretired =>
    rcases hholds with hread | ⟨item, hitem, rfl⟩
    · exact .inl (.inl hread)
    · rcases Session.mem_move hitem with ⟨hold, -⟩ | ⟨_, -, -, rfl⟩
      · exact .inl (.inr ⟨item, hold, rfl⟩)
      · rcases hclaim with hsame | ⟨before, hrevision, hstep⟩
        · exact .inl (.inr ⟨moving, hmoving, hsame.symm⟩)
        · exact .inr (.inr ⟨moving, hmoving, before, hrevision, hstep⟩)
  | dropped =>
    rcases hholds with hread | ⟨item, hitem, rfl⟩
    · exact .inl (.inl hread)
    · exact .inl (.inr ⟨item, (Session.mem_drop hitem).1, rfl⟩)
  | placed =>
    rcases hholds with hread | ⟨item, hitem, rfl⟩
    · exact .inl (.inl hread)
    · obtain ⟨old, hold, hplaced⟩ := mem_placeItems hitem
      exact .inl (.inr ⟨old, hold, hplaced.same.2.symm⟩)
  | crashed =>
    rcases hholds with hread | ⟨item, hitem, -⟩
    · cases hread
    · cases hitem

theorem Changed.holds (hchanged : Changed setting op world world')
    (hholds : world'.Holds owner claim) :
    world.Holds owner claim ∨
      (world'.coordinator.store = world.coordinator.store ∧
        world'.coordinator.store.wakeClaims.get? claim.assignmentId = some claim ∧
        claim.recipientLookup = owner ∧ claim.lifecycle.selectedPending = true) ∨
      ∃ item ∈ (world.sessions owner).items, ∃ before,
        before.revision = item.assignment.revision ∧
        Store.Stepped world.coordinator.store item.assignment.assignmentId .deferred before claim
          world'.coordinator.store := by
  obtain ⟨taker, hqueue, hothers⟩ := hchanged.queue
  by_cases howner : owner = taker
  · subst howner
    exact hqueue.holds hholds
  · unfold World.Holds at hholds
    rw [hothers owner howner] at hholds
    exact .inl hholds

/-! ### Every run -/

theorem Grounded.step (hgrounded : Grounded world) (hok : World.step setting op world = .ok world') :
    Grounded world' := by
  have hchanged := World.changed_of_step hgrounded.distinct hok
  have hevolve := hchanged.claims.evolve
  refine ⟨hevolve.distinct hgrounded.distinct, hchanged.keys hgrounded.keys, ?_⟩
  intro owner claim hholds
  rcases hchanged.holds hholds with hheld | ⟨-, hget, hlookup, -⟩ | ⟨item, hitem, before, -, hstep⟩
  · obtain ⟨hlookup, stored, hstored, hchain⟩ := hgrounded.held hheld
    obtain ⟨later, hlater, hchain'⟩ := hevolve.kept hstored
    exact ⟨hlookup, later, hlater, hchain.trans hchain'⟩
  · exact ⟨hlookup, claim, hget, .refl⟩
  · -- the paused claim is the one just stored
    obtain ⟨hlookup, stored, hstored, hchain⟩ := hgrounded.held (.inr ⟨item, hitem, rfl⟩)
    obtain rfl := Option.mem_unique hstored hstep.stored
    have hself := hstep.get?_self
    have hkey : claim.assignmentId = item.assignment.assignmentId :=
      world'.coordinator.store.wakeClaims.keyed _ _ hself
    refine ⟨?_, claim, hkey ▸ hself, .refl⟩
    rw [hstep.recipient.1, (WakeAssignment.follows_of_chain hchain).acceptance.2.2.1, hlookup]

theorem grounded_of_reached (setting : Setting Digest) (ops : List DeliveryOp) :
    Grounded (World.reached setting ops) :=
  run_invariant Grounded (fun _ _ _ hgrounded hok => hgrounded.step hok) ops .empty

end AgentComms.Deliveries
