import AgentComms.Goals.Moves

/-!
# One launch for a goal generation

Invariants of any number of stores over one ledger. `Granted` follows a ready grant from
the call that writes it to the reservation that uses it, and `Claimed` follows a claim from
its commit to the permit it returns. A call that raises and an instance that is lost only
shrink what is in memory, so both are one lemma.
-/

namespace AgentComms.Goals

open Library

namespace Stores

variable {stores after : Stores} {instanceId id : Nat} {reservation : Reservation} {call : Call}

/-! ### Instances -/

theorem at_withInstance (instanceId : Nat) (change : Instance → Instance) (other : Nat) :
    (stores.withInstance instanceId change).at_ other =
      if other = instanceId then change (stores.at_ instanceId) else stores.at_ other := by
  unfold at_ withInstance
  rw [Dict.get?_set]
  split <;> rfl

/-- Nothing but memory changes, and memory only shrinks. -/
structure Shrinks (stores after : Stores) : Prop where
  ledger : after.ledger = stores.ledger
  minted : after.minted = stores.minted
  delegated : after.delegated = stores.delegated
  permits : after.permits = stores.permits
  written : after.written = stores.written
  acknowledged : after.acknowledged = stores.acknowledged
  calls : ∀ id call, after.calls.get? id = some call → stores.calls.get? id = some call
  grants : ∀ instanceId key grant, (after.at_ instanceId).readyGrants.get? key = some grant →
    (stores.at_ instanceId).readyGrants.get? key = some grant

theorem Shrinks.eq (hshrinks : stores.Shrinks after) :
    after = { stores with calls := after.calls, instances := after.instances } := by
  cases after
  obtain ⟨rfl, rfl, rfl, rfl, rfl, rfl, -, -⟩ := hshrinks
  rfl

/-- A call ends, and its instance forgets some of its grants. -/
theorem shrinks_of_ended (id instanceId : Nat) {change : Instance → Instance}
    (hchange : ∀ store key grant, (change store).readyGrants.get? key = some grant →
      store.readyGrants.get? key = some grant) :
    stores.Shrinks ({ stores with calls := stores.calls.erase id }.withInstance instanceId
      change) := by
  refine ⟨rfl, rfl, rfl, rfl, rfl, rfl, ?_, ?_⟩
  · intro other call hcall
    exact (Dict.get?_erase_eq_some.mp hcall).2
  · intro other key grant hgrant
    rw [at_withInstance] at hgrant
    split at hgrant
    next hother =>
      rw [hother]
      exact hchange _ key grant hgrant
    · exact hgrant

theorem shrinks_of_erased (id : Nat) :
    stores.Shrinks { stores with calls := stores.calls.erase id } := by
  refine ⟨rfl, rfl, rfl, rfl, rfl, rfl, ?_, fun _ _ _ hgrant => hgrant⟩
  intro other call hcall
  exact (Dict.get?_erase_eq_some.mp hcall).2

theorem shrinks_of_raised (stores : Stores) (id : Nat) (call : Call) :
    stores.Shrinks (stores.raised id call) := by
  unfold raised
  split
  · exact shrinks_of_ended id call.instanceId fun _ _ _ hgrant => hgrant
  · exact shrinks_of_erased id

theorem shrinks_of_lost (instanceId : Nat) : stores.Shrinks (stores.step (.lose instanceId)) := by
  refine ⟨rfl, rfl, rfl, rfl, rfl, rfl, ?_, ?_⟩
  · intro id call hcall
    simp only [step, Dict.get?_filter, Option.filter_eq_some_iff] at hcall
    exact hcall.1
  · intro other key grant hgrant
    simp only [step, at_, Dict.get?_erase] at hgrant
    split at hgrant
    · cases hgrant
    · exact hgrant

/-! ### Grants -/

/-- Where a ready grant may be: a call writes it once, the row of its goal keeps the last
one written, and only a written grant whose call returned is ever presented. -/
structure Granted (stores : Stores) : Prop where
  minted : ∀ id call, stores.calls.get? id = some call → id < stores.minted
  writing : ∀ write ∈ stores.written, write.grant < stores.minted ∧
    ∀ call, stores.calls.get? write.grant = some call → call.committed = true
  separate : stores.written.Pairwise fun write other => write.grant ≠ other.grant
  granting : ∀ id call goalId generation, stores.calls.get? id = some call →
    call.committed = true → call.change.readyGeneration = some (goalId, generation) →
    ⟨goalId, generation, id⟩ ∈ stores.written
  acknowledged : ∀ write ∈ stores.acknowledged, write ∈ stores.written
  kept : ∀ instanceId goalId generation grant,
    (stores.at_ instanceId).readyGrants.get? (goalId, generation) = some grant →
    ⟨goalId, generation, grant⟩ ∈ stores.acknowledged
  delegated : ∀ grant ∈ stores.delegated, ∃ write ∈ stores.acknowledged, write.grant = grant
  reserving : ∀ id call reservation digest, stores.calls.get? id = some call →
    call.change = .reserve reservation digest →
    ∃ write ∈ stores.acknowledged, write.grant = digest
  rows : ∀ goalId row digest, stores.ledger.generations.get? goalId = some row →
    row.lifecycle = .ready digest →
    stores.written.find? (fun write => write.goalId = goalId) =
      some ⟨goalId, row.number, digest⟩

theorem Granted.shrink (hgranted : stores.Granted) (hshrinks : stores.Shrinks after) :
    after.Granted := by
  rw [hshrinks.eq]
  refine { hgranted with minted := ?_, writing := ?_, granting := ?_, kept := ?_, reserving := ?_ }
  · intro id call hcall
    exact hgranted.minted id call (hshrinks.calls id call hcall)
  · intro write hwrite
    obtain ⟨hlt, hcommitted⟩ := hgranted.writing write hwrite
    exact ⟨hlt, fun call hcall => hcommitted call (hshrinks.calls _ call hcall)⟩
  · intro id call goalId generation hcall
    exact hgranted.granting id call goalId generation (hshrinks.calls id call hcall)
  · intro instanceId goalId generation grant hgrant
    exact hgranted.kept instanceId goalId generation grant (hshrinks.grants _ _ _ hgrant)
  · intro id call reservation digest hcall
    exact hgranted.reserving id call reservation digest (hshrinks.calls id call hcall)

/-- A reserve call starts only with a grant that was acknowledged. -/
theorem Granted.begin (hgranted : stores.Granted) {op : AttemptOp} {digest : Nat}
    (hok : stores.begin instanceId op = .ok (some (.reserve reservation digest))) :
    ∃ write ∈ stores.acknowledged, write.grant = digest := by
  cases op with
  | reserve goalId expectedGeneration readyGrant =>
    simp only [Stores.begin, do_eq_ok] at hok
    obtain ⟨grant, hgrant, hchange⟩ := hok
    cases hchange
    cases readyGrant with
    | some presented =>
      simp only [selectGrant, do_eq_ok] at hgrant
      obtain ⟨-, hpresented, rfl⟩ := hgrant
      exact hgranted.delegated presented hpresented
    | none =>
      simp only [selectGrant] at hgrant
      split at hgrant
      next own hown =>
        cases hgrant
        exact ⟨_, hgranted.kept instanceId goalId expectedGeneration digest hown, rfl⟩
      · split at hgrant
        · split at hgrant <;> cases hgrant
        · cases hgrant
  | stop =>
    simp only [Stores.begin, do_eq_ok] at hok
    obtain ⟨record, -, hchange⟩ := hok
    split at hchange <;> cases hchange
  | createGoal | claimLaunch | recordVerifiedProgress | recordVerifiedCompletion =>
    simp only [Stores.begin, do_eq_ok] at hok
    obtain ⟨-, -, hchange⟩ := hok
    cases hchange
  | recoverUnreservedReady | fail | authorizeReadyRecovery | authorizeRetry | retireGoal =>
    cases hok

theorem Granted.start (hgranted : stores.Granted) {op : AttemptOp} {change : Change}
    (hok : stores.begin instanceId op = .ok (some change)) :
    Granted { stores with
      calls := stores.calls.set stores.minted ⟨instanceId, change, false⟩
      minted := stores.minted + 1 } := by
  -- a call of the next number is the new one, which is not committed
  refine ⟨?_, ?_, hgranted.separate, ?_, hgranted.acknowledged, hgranted.kept,
    hgranted.delegated, ?_, hgranted.rows⟩
  · intro id call hcall
    rcases Dict.get?_set_eq_some.mp hcall with ⟨rfl, -⟩ | ⟨-, hold⟩
    · exact Nat.lt_succ_self _
    · exact Nat.lt_succ_of_lt (hgranted.minted id call hold)
  · intro write hwrite
    obtain ⟨hlt, hcommitted⟩ := hgranted.writing write hwrite
    refine ⟨Nat.lt_succ_of_lt hlt, ?_⟩
    intro call hcall
    rcases Dict.get?_set_eq_some.mp hcall with ⟨hid, -⟩ | ⟨-, hold⟩
    · exact absurd hid (Nat.ne_of_lt hlt)
    · exact hcommitted call hold
  · intro id call goalId generation hcall hcommitted hready
    rcases Dict.get?_set_eq_some.mp hcall with ⟨-, rfl⟩ | ⟨-, hold⟩
    · cases hcommitted
    · exact hgranted.granting id call goalId generation hold hcommitted hready
  · intro id call reservation digest hcall hchange
    rcases Dict.get?_set_eq_some.mp hcall with ⟨-, rfl⟩ | ⟨-, hold⟩
    · dsimp only at hchange
      rw [hchange] at hok
      exact hgranted.begin hok
    · exact hgranted.reserving id call reservation digest hold hchange

theorem Granted.commit (hgranted : stores.Granted) {ledger : Ledger}
    (hcall : stores.calls.get? id = some call) (hpending : call.committed = false)
    (hok : call.change.write id stores.ledger = .ok ledger) :
    (stores.committed id call ledger).Granted := by
  obtain ⟨next, heffect⟩ := Change.write_effect hok
  have hunwritten : ∀ write ∈ stores.written, write.grant ≠ id := by
    rintro write hwrite rfl
    have hcommitted := (hgranted.writing write hwrite).2 call hcall
    rw [hpending] at hcommitted
    cases hcommitted
  have hwritten : ∀ write, write ∈ (stores.committed id call ledger).written →
      write ∈ stores.written ∨ write.grant = id := by
    intro write hwrite
    simp only [Stores.committed] at hwrite
    split at hwrite
    · rcases List.mem_cons.mp hwrite with rfl | hold
      · exact .inr rfl
      · exact .inl hold
    · exact .inl hwrite
  have hkept : ∀ write ∈ stores.written, write ∈ (stores.committed id call ledger).written := by
    intro write hwrite
    simp only [Stores.committed]
    split
    · exact List.mem_cons_of_mem _ hwrite
    · exact hwrite
  refine ⟨?_, ?_, ?_, ?_, ?_, hgranted.kept, hgranted.delegated, ?_, ?_⟩
  · intro other found hfound
    rcases Dict.get?_set_eq_some.mp hfound with ⟨rfl, -⟩ | ⟨-, hold⟩
    · exact hgranted.minted other call hcall
    · exact hgranted.minted other found hold
  · intro write hwrite
    have hmem := hwritten write hwrite
    constructor
    · rcases hmem with hold | hid
      · exact (hgranted.writing write hold).1
      · exact hid ▸ hgranted.minted id call hcall
    · intro found hfound
      rcases Dict.get?_set_eq_some.mp hfound with ⟨-, rfl⟩ | ⟨hne, hold⟩
      · rfl
      · exact (hgranted.writing write (hmem.resolve_right hne)).2 found hold
  · simp only [Stores.committed]
    split
    · refine List.pairwise_cons.mpr ⟨?_, hgranted.separate⟩
      intro write hwrite
      exact (hunwritten write hwrite).symm
    · exact hgranted.separate
  · intro other found goalId generation hfound hcommitted hready
    rcases Dict.get?_set_eq_some.mp hfound with ⟨rfl, rfl⟩ | ⟨-, hold⟩
    · simp only [Stores.committed]
      dsimp only at hready
      rw [hready]
      exact List.mem_cons_self
    · exact hkept _ (hgranted.granting other found goalId generation hold hcommitted hready)
  · intro write hwrite
    exact hkept write (hgranted.acknowledged write hwrite)
  · intro other found reservation digest hfound hchange
    rcases Dict.get?_set_eq_some.mp hfound with ⟨rfl, rfl⟩ | ⟨-, hold⟩
    · exact hgranted.reserving other call reservation digest hcall hchange
    · exact hgranted.reserving other found reservation digest hold hchange
  · intro goalId row digest hrow hready
    have hrow : ledger.generations.get? goalId = some row := hrow
    rw [heffect.rows] at hrow
    simp only [Stores.committed]
    rcases heffect.ready with ⟨hgrants, hnext⟩ | ⟨hgrants, hnext⟩
    · rw [hgrants]
      dsimp only
      split at hrow
      next hgoal =>
        cases hrow
        rw [hnext] at hready
        cases hready
        rw [hgoal, List.find?_cons_of_pos (by simp)]
      next hgoal =>
        rw [List.find?_cons_of_neg (by simpa using Ne.symm hgoal)]
        exact hgranted.rows goalId row digest hrow hready
    · rw [hgrants]
      dsimp only
      split at hrow
      · cases hrow
        rw [hready] at hnext
        cases hnext
      · exact hgranted.rows goalId row digest hrow hready

/-- A call that returns publishes its own grant, returns its permit, or only shrinks memory. -/
inductive Returns (stores : Stores) (id : Nat) (call : Call) : Stores → Prop
  | grant {goalId : String} {generation : Nat} {ended : Stores}
      (hready : call.change.readyGeneration = some (goalId, generation))
      (hshrinks : stores.Shrinks ended) :
      Returns stores id call
        { ended.withInstance call.instanceId fun store =>
            { store with readyGrants := store.readyGrants.set (goalId, generation) id } with
          acknowledged := ⟨goalId, generation, id⟩ :: stores.acknowledged }
  | permit {reservation : Reservation} {ended : Stores}
      (hchange : call.change = .claimLaunch reservation) (hshrinks : stores.Shrinks ended)
      (hended : ∀ other found, ended.calls.get? other = some found → other ≠ id) :
      Returns stores id call { ended with permits := reservation :: stores.permits }
  | memory {ended : Stores} (hshrinks : stores.Shrinks ended) : Returns stores id call ended

theorem returns_of_returned (stores : Stores) (id : Nat) (call : Call) :
    stores.Returns id call (stores.returned id call) := by
  unfold returned
  split
  next goalId generation hready => exact .grant hready (shrinks_of_erased id)
  · split
    · exact .memory (shrinks_of_ended id call.instanceId fun store key grant hgrant =>
        (Dict.get?_erase_eq_some.mp hgrant).2)
    next reservation hchange =>
      refine .permit hchange (shrinks_of_ended id call.instanceId fun _ _ _ hgrant => hgrant) ?_
      intro other found hfound
      exact (Dict.get?_erase_eq_some.mp hfound).1
    · exact .memory (shrinks_of_ended id call.instanceId fun store key grant hgrant =>
        (Dict.get?_erase_eq_some.mp hgrant).2)
    · exact .memory (shrinks_of_erased id)

theorem Returns.ledger (hreturns : stores.Returns id call after) :
    after.ledger = stores.ledger := by
  cases hreturns with
  | grant hready hshrinks | permit hchange hshrinks | memory hshrinks => exact hshrinks.ledger

theorem Granted.returns (hgranted : stores.Granted) (hcall : stores.calls.get? id = some call)
    (hcommitted : call.committed = true) (hreturns : stores.Returns id call after)
    : after.Granted := by
  cases hreturns with
  | memory hshrinks => exact hgranted.shrink hshrinks
  | permit hchange hshrinks =>
    exact { hgranted.shrink hshrinks with }
  | @grant goalId generation ended hready hshrinks =>
    have hended := hgranted.shrink hshrinks
    have hwritten := hgranted.granting id call goalId generation hcall hcommitted hready
    have hmore : ∀ write ∈ ended.acknowledged,
        write ∈ (⟨goalId, generation, id⟩ : GrantWrite) :: stores.acknowledged := by
      intro write hwrite
      rw [hshrinks.acknowledged] at hwrite
      exact List.mem_cons_of_mem _ hwrite
    refine { hended with acknowledged := ?_, kept := ?_, delegated := ?_, reserving := ?_ }
    · intro write hwrite
      change write ∈ ended.written
      rcases List.mem_cons.mp hwrite with rfl | hold
      · rw [hshrinks.written]
        exact hwritten
      · exact hended.acknowledged write (hshrinks.acknowledged ▸ hold)
    · intro instanceId otherGoal otherGeneration grant hgrant
      have hgrant : ((ended.withInstance call.instanceId fun store =>
          { store with readyGrants := store.readyGrants.set (goalId, generation) id }).at_
          instanceId).readyGrants.get? (otherGoal, otherGeneration) = some grant := hgrant
      rw [at_withInstance] at hgrant
      split at hgrant
      · rcases Dict.get?_set_eq_some.mp hgrant with ⟨hkey, rfl⟩ | ⟨-, hgrant⟩
        · cases hkey
          exact List.mem_cons_self
        · exact hmore _ (hended.kept _ _ _ _ hgrant)
      · exact hmore _ (hended.kept _ _ _ _ hgrant)
    · intro grant hgrant
      obtain ⟨write, hwrite, hgrant⟩ := hended.delegated grant hgrant
      exact ⟨write, hmore write hwrite, hgrant⟩
    · intro other found reservation digest hfound hchange
      obtain ⟨write, hwrite, hdigest⟩ :=
        hended.reserving other found reservation digest hfound hchange
      exact ⟨write, hmore write hwrite, hdigest⟩

/-! ### Claims -/

/-- The attempt of a reservation, claimed at some time. -/
def Launched (ledger : Ledger) (reservation : Reservation) : Prop :=
  ∃ record, ledger.attempts.get? reservation.attemptId = some record ∧
    record.reservation = reservation ∧ record.phase ≠ .reserved

theorem Launched.keeps {ledger later : Ledger} (hlaunched : Launched ledger reservation)
    (hkeeps : ledger.Keeps later) : Launched later reservation := by
  obtain ⟨record, hrecord, hheld, hphase⟩ := hlaunched
  obtain ⟨found, hfound, hreservation, -, hopen⟩ := hkeeps.attempt _ record hrecord
  exact ⟨found, hfound, hreservation.trans hheld, hopen hphase⟩

/-- A claim is committed once, by a call that may still return its permit. -/
structure Claimed (stores : Stores) : Prop where
  permitted : ∀ reservation ∈ stores.permits, Launched stores.ledger reservation
  claiming : ∀ id call reservation, stores.calls.get? id = some call → call.committed = true →
    call.change = .claimLaunch reservation → Launched stores.ledger reservation ∧
      ∀ permit ∈ stores.permits, permit.attemptId ≠ reservation.attemptId
  once : ∀ id call reservation id' call' reservation', stores.calls.get? id = some call →
    stores.calls.get? id' = some call' → call.committed = true → call'.committed = true →
    call.change = .claimLaunch reservation → call'.change = .claimLaunch reservation' →
    reservation.attemptId = reservation'.attemptId → id = id'
  separate : stores.permits.Pairwise fun permit other => permit.attemptId ≠ other.attemptId

theorem Claimed.shrink (hclaimed : stores.Claimed) (hshrinks : stores.Shrinks after) :
    after.Claimed := by
  rw [hshrinks.eq]
  refine { hclaimed with claiming := ?_, once := ?_ }
  · intro id call reservation hcall
    exact hclaimed.claiming id call reservation (hshrinks.calls id call hcall)
  · intro id call reservation id' call' reservation' hcall hcall'
    exact hclaimed.once id call reservation id' call' reservation'
      (hshrinks.calls id call hcall) (hshrinks.calls id' call' hcall')

theorem Claimed.start (hclaimed : stores.Claimed) {change : Change} :
    Claimed { stores with
      calls := stores.calls.set stores.minted ⟨instanceId, change, false⟩
      minted := stores.minted + 1 } := by
  have hcalls : ∀ id call, (stores.calls.set stores.minted ⟨instanceId, change, false⟩).get? id =
      some call → call.committed = true → stores.calls.get? id = some call := by
    intro id call hcall hcommitted
    rcases Dict.get?_set_eq_some.mp hcall with ⟨-, rfl⟩ | ⟨-, hold⟩
    · cases hcommitted
    · exact hold
  refine ⟨hclaimed.permitted, ?_, ?_, hclaimed.separate⟩
  · intro id call reservation hcall hcommitted hchange
    exact hclaimed.claiming id call reservation (hcalls id call hcall hcommitted) hcommitted
      hchange
  · intro id call reservation id' call' reservation' hcall hcall' hcommitted hcommitted'
    exact hclaimed.once id call reservation id' call' reservation'
      (hcalls id call hcall hcommitted) (hcalls id' call' hcall' hcommitted') hcommitted
      hcommitted'

/-- A claim commits on a reserved attempt, so no earlier claim has it. -/
theorem Claimed.commit (hclaimed : stores.Claimed) {ledger : Ledger}
    (hok : call.change.write id stores.ledger = .ok ledger) :
    (stores.committed id call ledger).Claimed := by
  obtain ⟨next, heffect⟩ := Change.write_effect hok
  have hkeeps := heffect.keeps
  have hnew : ∀ reservation, call.change = .claimLaunch reservation →
      Launched ledger reservation ∧ ∀ other, Launched stores.ledger other →
        other.attemptId ≠ reservation.attemptId := by
    intro reservation hchange
    rw [hchange] at hok
    simp only [Change.write, Ledger.claimLaunch, bind_eq_ok, Prod.exists,
      Ledger.requireCurrent_eq_ok, Ledger.advanceAttempt_eq_ok] at hok
    obtain ⟨current, record, ⟨hrecord, hheld, -, -, -, hreserved⟩, -, rfl⟩ := hok
    constructor
    · refine ⟨⟨record.reservation, .claimed, none, .noResolution⟩, ?_, hheld, ?_⟩
      · rw [hheld, Ledger.get?_updateAttempt hrecord, if_pos rfl, ← hheld]
      · intro habsurd
        cases habsurd
    · rintro other ⟨found, hfound, -, hphase⟩ hsame
      rw [hsame, hrecord] at hfound
      cases hfound
      exact hphase hreserved
  refine ⟨?_, ?_, ?_, hclaimed.separate⟩
  · intro reservation hreservation
    exact (hclaimed.permitted reservation hreservation).keeps hkeeps
  · intro other found reservation hfound hcommitted hchange
    rcases Dict.get?_set_eq_some.mp hfound with ⟨-, rfl⟩ | ⟨-, hold⟩
    · obtain ⟨hlaunched, hfirst⟩ := hnew reservation hchange
      refine ⟨hlaunched, ?_⟩
      intro permit hpermit
      exact hfirst permit (hclaimed.permitted permit hpermit)
    · obtain ⟨hlaunched, hpermits⟩ := hclaimed.claiming other found reservation hold hcommitted
        hchange
      exact ⟨hlaunched.keeps hkeeps, hpermits⟩
  · intro other found reservation other' found' reservation' hfound hfound' hcommitted
      hcommitted' hchange hchange' hsame
    rcases Dict.get?_set_eq_some.mp hfound with ⟨hid, rfl⟩ | ⟨-, hold⟩
    · rcases Dict.get?_set_eq_some.mp hfound' with ⟨hid', -⟩ | ⟨-, hold'⟩
      · exact hid.trans hid'.symm
      · have hlaunched := (hclaimed.claiming other' found' reservation' hold' hcommitted'
          hchange').1
        exact absurd hsame.symm ((hnew reservation hchange).2 reservation' hlaunched)
    · rcases Dict.get?_set_eq_some.mp hfound' with ⟨-, rfl⟩ | ⟨-, hold'⟩
      · have hlaunched := (hclaimed.claiming other found reservation hold hcommitted hchange).1
        exact absurd hsame ((hnew reservation' hchange').2 reservation hlaunched)
      · exact hclaimed.once other found reservation other' found' reservation' hold hold'
          hcommitted hcommitted' hchange hchange' hsame

theorem Claimed.returns (hclaimed : stores.Claimed) (hcall : stores.calls.get? id = some call)
    (hcommitted : call.committed = true) (hreturns : stores.Returns id call after)
    : after.Claimed := by
  cases hreturns with
  | memory hshrinks => exact hclaimed.shrink hshrinks
  | grant hready hshrinks =>
    exact { hclaimed.shrink hshrinks with }
  | @permit reservation ended hchange hshrinks hgone =>
    have hended := hclaimed.shrink hshrinks
    obtain ⟨hlaunched, hfirst⟩ := hclaimed.claiming id call reservation hcall hcommitted hchange
    refine ⟨?_, ?_, hended.once, ?_⟩
    · intro permit hpermit
      change Launched ended.ledger permit
      rw [hshrinks.ledger]
      rcases List.mem_cons.mp hpermit with rfl | hold
      · exact hlaunched
      · exact hclaimed.permitted permit hold
    · intro other found claimed hfound hdone hclaim
      have hold := hshrinks.calls other found hfound
      obtain ⟨hother, hpermits⟩ := hclaimed.claiming other found claimed hold hdone hclaim
      refine ⟨(hended.claiming other found claimed hfound hdone hclaim).1, ?_⟩
      intro permit hpermit
      rcases List.mem_cons.mp hpermit with rfl | hearlier
      · -- the other call is still running, so it claims another attempt
        intro hsame
        have hid := hclaimed.once id call permit other found claimed hcall hold hcommitted hdone
          hchange hclaim hsame
        exact hgone other found hfound hid.symm
      · exact hpermits permit hearlier
    · refine List.pairwise_cons.mpr ⟨?_, hclaimed.separate⟩
      intro permit hpermit
      exact (hfirst permit hpermit).symm

/-! ### Runs -/

structure Coherent (stores : Stores) : Prop where
  coupled : stores.ledger.Coupled
  granted : stores.Granted
  claimed : stores.Claimed

theorem Coherent.shrink (hcoherent : stores.Coherent) (hshrinks : stores.Shrinks after) :
    after.Coherent :=
  ⟨hshrinks.ledger ▸ hcoherent.coupled, hcoherent.granted.shrink hshrinks,
    hcoherent.claimed.shrink hshrinks⟩

/-- A step keeps the invariants, and the ledger keeps what it keeps for good. -/
theorem Coherent.step (hcoherent : stores.Coherent) (event : StoresEvent) :
    (stores.step event).Coherent ∧ stores.ledger.Keeps (stores.step event).ledger := by
  have hsame : stores.Coherent ∧ stores.ledger.Keeps stores.ledger := ⟨hcoherent, .refl _⟩
  have hraised : ∀ id call, (stores.raised id call).Coherent ∧
      stores.ledger.Keeps (stores.raised id call).ledger := by
    intro id call
    have hshrinks := shrinks_of_raised stores id call
    exact ⟨hcoherent.shrink hshrinks, hshrinks.ledger ▸ .refl _⟩
  cases event with
  | start =>
    simp only [Stores.step]
    split
    next change hok =>
      exact ⟨⟨hcoherent.coupled, hcoherent.granted.start hok, hcoherent.claimed.start⟩, .refl _⟩
    · exact hsame
  | commit id =>
    simp only [Stores.step]
    split
    next call hcall =>
      split
      · exact hsame
      next hpending =>
        split
        next ledger hok =>
          obtain ⟨next, heffect⟩ := Change.write_effect hok
          exact ⟨⟨heffect.coupled hcoherent.coupled,
            hcoherent.granted.commit hcall (by simpa using hpending) hok,
            hcoherent.claimed.commit hok⟩, heffect.keeps⟩
        · exact hraised id call
    · exact hsame
  | attest id =>
    simp only [Stores.step]
    split
    next call hcall =>
      split
      next hcommitted =>
        split
        · have hreturns := returns_of_returned stores id call
          have hledger := hreturns.ledger
          exact ⟨⟨hledger ▸ hcoherent.coupled, hcoherent.granted.returns hcall hcommitted hreturns,
            hcoherent.claimed.returns hcall hcommitted hreturns⟩, hledger ▸ .refl _⟩
        · exact hraised id call
      · exact hsame
    · exact hsame
  | raise id =>
    simp only [Stores.step]
    split
    · exact hraised id _
    · exact hsame
  | lose instanceId =>
    exact ⟨hcoherent.shrink (shrinks_of_lost instanceId), .refl _⟩
  | delegate instanceId goalId generation =>
    simp only [Stores.step]
    split
    next grant hgrant =>
      split
      · have hgranted := hcoherent.granted
        refine ⟨⟨hcoherent.coupled, { hgranted with delegated := ?_ },
          { hcoherent.claimed with }⟩, .refl _⟩
        intro presented hpresented
        rcases List.mem_cons.mp hpresented with rfl | hold
        · exact ⟨_, hgranted.kept instanceId goalId generation presented hgrant, rfl⟩
        · exact hgranted.delegated presented hold
      · exact hsame
    · exact hsame

theorem Coherent.run (events : List StoresEvent) (hcoherent : stores.Coherent) :
    (events.foldl Stores.step stores).Coherent ∧
      stores.ledger.Keeps (events.foldl Stores.step stores).ledger := by
  induction events generalizing stores with
  | nil => exact ⟨hcoherent, .refl _⟩
  | cons event events ih =>
    obtain ⟨hnext, hkeeps⟩ := hcoherent.step event
    obtain ⟨hlast, hkeeps'⟩ := ih hnext
    exact ⟨hlast, hkeeps.trans hkeeps'⟩

theorem coherent_initial : Coherent initial := by
  refine ⟨⟨?_, ?_⟩, ⟨?_, ?_, List.Pairwise.nil, ?_, ?_, ?_, ?_, ?_, ?_⟩,
    ⟨?_, ?_, ?_, List.Pairwise.nil⟩⟩
  all_goals simp [initial, Ledger.empty, at_, Instance.opened]

theorem coherent_reached (events : List StoresEvent) : (reached events).Coherent :=
  (coherent_initial.run events).1

/-- An open attempt is the one its goal's current generation is reserved for. -/
theorem Coherent.open_attempt (hcoherent : stores.Coherent) {record : AttemptRecord}
    (hrecord : stores.ledger.attempts.get? id = some record) (hopen : record.phase.open_ = true) :
    ∃ row, stores.ledger.generations.get? record.reservation.goalId = some row ∧
      row.number = record.reservation.generation ∧ row.lifecycle = .reserved id := by
  obtain ⟨row, hrow, ⟨hnumber, hnamed⟩ | ⟨-, hclosed⟩⟩ := hcoherent.coupled.recorded id record hrecord
  · refine ⟨row, hrow, hnumber.symm, ?_⟩
    obtain ⟨found, hfound, -, -, hfits⟩ := hcoherent.coupled.named _ row id hrow hnamed
    cases hrecord.symm.trans hfound
    cases hphase : record.phase with
    | reserved | claimed =>
      cases hstate : row.lifecycle with
      | reserved =>
        rw [hstate] at hnamed
        cases hnamed
        rfl
      | ready own | blocked own | completed own | cancelled own =>
        rw [hstate, hphase] at hfits
        cases hfits
    | failed | succeeded | resolved =>
      rw [hphase] at hopen
      cases hopen
  · rw [hopen] at hclosed
    cases hclosed

/-- A reservation commits only on the last grant written for its goal, which was
acknowledged. -/
theorem Granted.reserve (hgranted : stores.Granted) {digest : Nat} {ledger : Ledger}
    (hcall : stores.calls.get? id = some call) (hchange : call.change = .reserve reservation digest)
    (hok : call.change.write id stores.ledger = .ok ledger) :
    ⟨reservation.goalId, reservation.generation, digest⟩ ∈ stores.acknowledged ∧
      stores.written.find? (fun write => write.goalId = reservation.goalId) =
        some ⟨reservation.goalId, reservation.generation, digest⟩ := by
  obtain ⟨write, hwrite, rfl⟩ := hgranted.reserving id call reservation digest hcall hchange
  rw [hchange] at hok
  simp only [Change.write, Ledger.reserve, do_eq_ok, Prod.exists, Ledger.requireReady_eq_ok] at hok
  obtain ⟨row, own, ⟨hrow, hnumber, hready⟩, -, rfl, -⟩ := hok
  have hlast := hgranted.rows reservation.goalId row write.grant hrow hready
  rw [hnumber] at hlast
  refine ⟨?_, hlast⟩
  -- grants differ, so the acknowledged write is the last one of the goal
  have hnodup : (stores.written.map GrantWrite.grant).Nodup :=
    List.pairwise_map.mpr hgranted.separate
  have hsame := List.inj_on_of_nodup_map hnodup (hgranted.acknowledged write hwrite)
    (List.mem_of_find?_eq_some hlast) rfl
  rw [← hsame]
  exact hwrite

end Stores

/-- In every run of any number of stores over one ledger: a goal generation has at most one
attempt and one permit; an open attempt is the one its goal's current generation is
reserved for; a reserved, blocked or completed generation names an attempt of its own
number in that phase; numbers never decrease, and what is terminal stays; a decision is
used once for a goal; and a reservation commits only on the last grant written for its
goal, which was acknowledged. -/
theorem one_launch_per_generation (events later : List StoresEvent) :
    let stores := Stores.reached events
    let ledger := stores.ledger
    (∀ id record id' record', ledger.attempts.get? id = some record →
      ledger.attempts.get? id' = some record' →
      record.reservation.goalId = record'.reservation.goalId →
      record.reservation.generation = record'.reservation.generation → id = id') ∧
    (stores.permits.Pairwise fun permit other =>
      ¬ (permit.goalId = other.goalId ∧ permit.generation = other.generation)) ∧
    (∀ id record, ledger.attempts.get? id = some record → record.phase.open_ = true →
      (∃ row, ledger.generations.get? record.reservation.goalId = some row ∧
        row.number = record.reservation.generation ∧ row.lifecycle = .reserved id) ∧
      ∀ id' record', ledger.attempts.get? id' = some record' → record'.phase.open_ = true →
        record'.reservation.goalId = record.reservation.goalId → id' = id) ∧
    (∀ goalId row id, ledger.generations.get? goalId = some row →
      row.lifecycle = .reserved id ∨ row.lifecycle = .blocked id ∨ row.lifecycle = .completed id →
      ∃ record, ledger.attempts.get? id = some record ∧ record.reservation.goalId = goalId ∧
        record.reservation.generation = row.number ∧
        (row.lifecycle = .reserved id → record.phase = .reserved ∨ record.phase = .claimed) ∧
        (row.lifecycle = .blocked id → record.phase = .failed) ∧
        (row.lifecycle = .completed id → record.phase = .succeeded)) ∧
    ledger.Keeps (Stores.reached (events ++ later)).ledger ∧
    (∀ id call row after, stores.calls.get? id = some call → call.change.decision = some row →
      call.change.write id ledger = .ok after →
      (∀ other ∈ ledger.decisions, (row.goalId, row.decision) ≠ (other.goalId, other.decision)) ∧
        row ∈ after.decisions) ∧
    ∀ id call reservation digest after, stores.calls.get? id = some call →
      call.change = .reserve reservation digest → call.change.write id ledger = .ok after →
      ⟨reservation.goalId, reservation.generation, digest⟩ ∈ stores.acknowledged ∧
        stores.written.find? (fun write => write.goalId = reservation.goalId) =
          some ⟨reservation.goalId, reservation.generation, digest⟩ := by
  intro stores ledger
  have hcoherent : stores.Coherent := Stores.coherent_reached events
  refine ⟨ledger.unique, ?_, ?_, ?_, ?_, ?_, ?_⟩
  · -- permits of one generation would be for one attempt
    refine hcoherent.claimed.separate.imp_of_mem ?_
    rintro permit other hpermit hother hne ⟨hgoal, hgeneration⟩
    obtain ⟨record, hrecord, rfl, -⟩ := hcoherent.claimed.permitted permit hpermit
    obtain ⟨record', hrecord', rfl, -⟩ := hcoherent.claimed.permitted other hother
    exact hne (ledger.unique _ record _ record' hrecord hrecord' hgoal hgeneration)
  · intro id record hrecord hopen
    obtain ⟨row, hrow, hnumber, hstate⟩ := hcoherent.open_attempt hrecord hopen
    refine ⟨⟨row, hrow, hnumber, hstate⟩, ?_⟩
    intro id' record' hrecord' hopen' hgoal
    obtain ⟨row', hrow', -, hstate'⟩ := hcoherent.open_attempt hrecord' hopen'
    rw [hgoal] at hrow'
    cases hrow.symm.trans hrow'
    exact GenerationState.reserved.inj (hstate'.symm.trans hstate)
  · intro goalId row id hrow hstate
    have hnamed : row.lifecycle.attemptId = some id := by
      rcases hstate with hstate | hstate | hstate <;> rw [hstate] <;> rfl
    obtain ⟨record, hrecord, hgoal, hgeneration, hfits⟩ :=
      hcoherent.coupled.named goalId row id hrow hnamed
    refine ⟨record, hrecord, hgoal, hgeneration, ?_, ?_, ?_⟩
    · intro hreserved
      rw [hreserved] at hfits
      simpa [GenerationState.fits, GoalAttemptPhase.open_] using hfits
    · intro hblocked
      rw [hblocked] at hfits
      simpa [GenerationState.fits] using hfits
    · intro hcompleted
      rw [hcompleted] at hfits
      simpa [GenerationState.fits] using hfits
  · have hrun : Stores.reached (events ++ later) = later.foldl Stores.step stores :=
      List.foldl_append
    rw [hrun]
    exact (hcoherent.run later).2
  · intro id call row after hcall hdecision hok
    obtain ⟨next, heffect⟩ := Change.write_effect hok
    have hused := heffect.decisions
    rw [hdecision] at hused
    exact ⟨hused.1, by rw [hused.2]; exact List.mem_cons_self⟩
  · intro id call reservation digest after hcall hchange hok
    exact hcoherent.granted.reserve hcall hchange hok

/-- One decision authorizes a new generation of each of two goals. -/
theorem decision_serves_two_goals :
    let ledger := (Stores.reached [.start 0 (.createGoal "a"), .commit 0, .attest 0,
      .start 0 (.createGoal "b"), .commit 1, .attest 1,
      .start 0 (.authorizeReadyRecovery "a" 1 (.retry "d")), .commit 2, .attest 2,
      .start 0 (.authorizeReadyRecovery "b" 1 (.retry "d")), .commit 3, .attest 3]).ledger
    ⟨"a", .retry "d", 1⟩ ∈ ledger.decisions ∧ ⟨"b", .retry "d", 1⟩ ∈ ledger.decisions ∧
      (ledger.generations.get? "a").map Generation.number = some 2 ∧
      (ledger.generations.get? "b").map Generation.number = some 2 := by
  decide +kernel

end AgentComms.Goals
