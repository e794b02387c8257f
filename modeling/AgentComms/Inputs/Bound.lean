import AgentComms.Inputs.Dispositions

/-!
# An input is bound at most once

What an operation does to one key is said once: it leaves the row, stores a first row
that is unresolved, changes the notices of a row, or moves its state along one edge.
From the edges it follows that an original never changes, that a binding and a context
proof stay, and that an input settled as not sent or cleared keeps its state for good.
-/

namespace AgentComms.Inputs

open Library

variable {Origin Digest : Type}
  {op : InputOp Origin Digest} {key : InputKey} {row : StoredInput Origin Digest}
  {store : InputDocument Origin Digest}

/-! ### Edges -/

inductive InputState.Moves (digest : String → Digest) (op : InputOp Origin Digest)
    (key : InputKey) : InputState Digest → InputState Digest → Prop
  | bound (binding : NativeBinding Digest) : Moves digest op key .reserved (.boundUnknown binding)
  | notSent : Moves digest op key .reserved .notSent
  | clearedUnsent : Moves digest op key .reserved .clearedUnsent
  | clearedNative (binding : NativeBinding Digest) :
      Moves digest op key (.boundUnknown binding) (.clearedNative binding)
  | started {turnId nativeId text : String} (hop : op = .started key turnId nativeId text) :
      Moves digest op key (.boundUnknown ⟨turnId, nativeId, digest text⟩)
        (.started ⟨turnId, nativeId, digest text⟩)
  | context (binding : NativeBinding Digest) (context : NativeContextProof) :
      Moves digest op key (.started binding) (.contextConsumed binding context)

inductive KeyStep (digest : String → Digest) (op : InputOp Origin Digest) (key : InputKey) :
    InputAttempt Origin Digest → InputAttempt Origin Digest → Prop
  | same (attempt : InputAttempt Origin Digest) : KeyStep digest op key attempt attempt
  | fresh {row : StoredInput Origin Digest} (hunresolved : row.state.unresolved = true) :
      KeyStep digest op key none (some row)
  | noted (row : StoredInput Origin Digest) (dismissed : Bool)
      {reviews : Dict String GoalInputDecision}
      (hreviews : ∀ goalId, goalId ∈ row.goalReviews → goalId ∈ reviews) :
      KeyStep digest op key (some row)
        (some { row with noticeDismissed := dismissed, goalReviews := reviews })
  | moved {row : StoredInput Origin Digest} {state : InputState Digest}
      (hmoves : InputState.Moves digest op key row.state state) :
      KeyStep digest op key (some row) (some { row with state := state })

/-- A batch binds every key, each reserved under the claim, or changes no row. -/
def BindsWhole (digest : String → Digest) (keys : List InputKey) (send : NativeSend)
    (store next : InputDocument Origin Digest) : Prop :=
  (∀ key, next.lookup key = store.lookup key) ∨
    (∀ key ∉ keys, next.lookup key = store.lookup key) ∧
      ∀ key ∈ keys, ∃ row, store.lookup key = some row ∧ row.state = .reserved ∧
        row.claimGeneration = send.claimScope ∧
        next.lookup key = some { row with
          state := .boundUnknown ⟨send.turnId, send.nativeId, digest send.text⟩ }

def InputOp.binds : InputOp Origin Digest → Option (List InputKey × NativeSend)
  | .bindOriginals keys send | .bindTurnInput keys send _ => some (keys, send)
  | _ => none

/-- A start is recorded by `started`, for the stored binding. -/
theorem KeyStep.started {digest : String → Digest} {before : InputAttempt Origin Digest}
    (hstep : KeyStep digest op key before (some row)) (hstarted : row.state.hasStarted = true) :
    (∃ old, before = some old ∧ old.state.hasStarted = true) ∨
      ∃ turnId nativeId text old, op = .started key turnId nativeId text ∧
        before = some old ∧ old.state = .boundUnknown ⟨turnId, nativeId, digest text⟩ := by
  cases hstep with
  | same => exact .inl ⟨row, rfl, hstarted⟩
  | fresh hunresolved =>
    cases hstate : row.state <;>
      simp [hstate, InputState.unresolved, InputState.hasStarted] at hunresolved hstarted
  | noted old => exact .inl ⟨old, rfl, hstarted⟩
  | @moved old state hmoves =>
    dsimp only at hstarted
    generalize hold : old.state = before at hmoves
    cases hmoves with
    | started hop => exact .inr ⟨_, _, _, old, hop, rfl, hold⟩
    | context => exact .inl ⟨old, rfl, by rw [hold]; rfl⟩
    | bound | notSent | clearedUnsent | clearedNative => cases hstarted

section

variable [DecidableEq Digest]

structure StoredInput.Keeps (before after : StoredInput Origin Digest) : Prop where
  original : after.toOriginal = before.toOriginal
  binding : ∀ binding, before.state.binding = some binding → after.state.binding = some binding
  closed : before.state.closed = true → after.state = before.state
  context : ∀ context, before.state.context = some context → after.state.context = some context

namespace StoredInput.Keeps

variable {before middle after : StoredInput Origin Digest}

theorem refl (row : StoredInput Origin Digest) : row.Keeps row :=
  ⟨rfl, fun _ hbinding => hbinding, fun _ => rfl, fun _ hcontext => hcontext⟩

theorem trans (hfirst : before.Keeps middle) (hrest : middle.Keeps after) : before.Keeps after where
  original := hrest.original.trans hfirst.original
  binding := fun binding hbinding => hrest.binding binding (hfirst.binding binding hbinding)
  closed := by
    intro hclosed
    have hmiddle := hfirst.closed hclosed
    rw [← hmiddle] at hclosed ⊢
    exact hrest.closed hclosed
  context := fun context hcontext => hrest.context context (hfirst.context context hcontext)

end StoredInput.Keeps

theorem InputState.Moves.keeps {digest : String → Digest} {state : InputState Digest}
    (hmoves : InputState.Moves digest op key row.state state) :
    row.Keeps { row with state := state } := by
  generalize hstate : row.state = before at hmoves
  cases hmoves <;> constructor <;>
    simp [hstate, InputState.binding, InputState.closed, InputState.cleared, InputState.context]

theorem KeyStep.keeps {digest : String → Digest} {before : StoredInput Origin Digest}
    {after : InputAttempt Origin Digest} (hstep : KeyStep digest op key (some before) after) :
    ∃ row, after = some row ∧ before.Keeps row := by
  cases hstep with
  | same => exact ⟨before, rfl, .refl before⟩
  | noted =>
    refine ⟨_, rfl, rfl, fun _ hbinding => hbinding, fun _ => rfl, fun _ hcontext => hcontext⟩
  | moved hmoves => exact ⟨_, rfl, hmoves.keeps⟩

end

/-! ### Documents -/

namespace InputDocument

variable {document made : InputDocument Origin Digest} {rows : InputRows Origin Digest}
  {row : StoredInput Origin Digest}
  {change : InputAttempt Origin Digest → Checked (InputTransition Digest)}

@[simp] theorem make_eq_ok : make rows = .ok made ↔ made.rows = rows := by
  unfold make
  constructor
  · intro hok
    split at hok
    · cases hok
      rfl
    · cases hok
  · rintro rfl
    rw [dif_pos made.keyed]

theorem key_of_lookup (hget : document.lookup key = some row) : row.key = key :=
  document.keyed (key, row) (Dict.mem_entries.mpr hget)

theorem lookup_select (where_ : StoredInput Origin Digest → Bool) (key : InputKey) :
    (document.select where_).lookup key = (document.lookup key).filter where_ :=
  Dict.get?_filter _ _ _

theorem lookup_of_update (hrows : made.rows = document.rows.update rows) (key : InputKey) :
    made.lookup key = (rows.get? key).or (document.lookup key) := by
  rw [lookup, hrows, Dict.get?_update]
  rfl

theorem lookup_select_keyIn (document : InputDocument Origin Digest) (keys : List InputKey)
    (key : InputKey) :
    (document.select (InputDispositions.keyIn keys)).lookup key =
      if key ∈ keys then document.lookup key else none := by
  rw [lookup_select]
  cases hget : document.lookup key with
  | none => simp
  | some => simp [Option.filter_some, InputDispositions.keyIn, key_of_lookup hget]

/-- The successors collected from a list of keys, over any rows collected before. -/
theorem get?_foldlM_successors {keys : List InputKey} {start : InputRows Origin Digest}
    (hok : keys.foldlM (fun rows key => do
      let result ← change (document.lookup key)
      pure (match (document.lookup key).successor result with
        | some row => rows.set key row
        | none => rows)) start = .ok rows) (key : InputKey) :
    key ∉ keys ∧ rows.get? key = start.get? key ∨
      key ∈ keys ∧ ∃ result, change (document.lookup key) = .ok result ∧
        rows.get? key = ((document.lookup key).successor result).or (start.get? key) := by
  induction keys generalizing start with
  | nil =>
    cases hok
    exact .inl ⟨List.not_mem_nil, rfl⟩
  | cons first keys ih =>
    rw [List.foldlM_cons] at hok
    simp only [do_eq_ok] at hok
    obtain ⟨middle, ⟨result, hresult, hmiddle⟩, hrest⟩ := hok
    have hset : ∀ other, middle.get? other = if other = first then
        ((document.lookup first).successor result).or (start.get? other)
        else start.get? other := by
      intro other
      rw [← hmiddle]
      cases (document.lookup first).successor result with
      | none => simp
      | some => simp [Dict.get?_set]
    rcases ih hrest with ⟨hnot, hrows⟩ | ⟨hmem, last, hlast, hrows⟩
    · by_cases hfirst : key = first
      · subst hfirst
        refine .inr ⟨List.mem_cons_self, result, hresult, ?_⟩
        rw [hrows, hset, if_pos rfl]
      · refine .inl ⟨by simp [hfirst, hnot], ?_⟩
        rw [hrows, hset, if_neg hfirst]
    · refine .inr ⟨List.mem_cons_of_mem _ hmem, last, hlast, ?_⟩
      rw [hrows, hset]
      split
      next hfirst =>
        -- the key was seen before, with the same result
        subst hfirst
        have hsame : result = last := by
          rw [hlast] at hresult
          exact (Except.ok.inj hresult).symm
        rw [hsame]
        cases (document.lookup key).successor last <;> rfl
      · rfl

theorem get?_successors {keys : List InputKey} (hok : document.successors keys change = .ok rows)
    (key : InputKey) :
    key ∉ keys ∧ rows.get? key = none ∨
      key ∈ keys ∧ ∃ result, change (document.lookup key) = .ok result ∧
        rows.get? key = (document.lookup key).successor result := by
  simpa only [Dict.get?_empty, Option.or_none] using get?_foldlM_successors hok key

/-- A reservation is recorded under a key that has no row. -/
theorem record_cases {originals : List (ReservedInput Origin)}
    {recorded : InputDocument Origin Digest} (hok : document.record originals = .ok recorded)
    (key : InputKey) :
    recorded.lookup key = document.lookup key ∨
      document.lookup key = none ∧ ∃ row ∈ originals, row.key = key ∧
        recorded.lookup key = some row.stored := by
  rw [record, make_eq_ok] at hok
  unfold lookup
  rw [hok]
  clear hok
  generalize document.rows = rows
  induction originals generalizing rows with
  | nil => exact .inl rfl
  | cons first originals ih =>
    rw [List.foldl_cons]
    rcases ih (if first.key ∈ rows then rows else rows.set first.key first.stored) with
      hsame | ⟨hnone, row, hrow, hkey, hget⟩
    · rw [hsame]
      split
      · exact .inl rfl
      next hfree =>
        rw [Dict.get?_set]
        split
        next hkey =>
          refine .inr ⟨?_, first, List.mem_cons_self, hkey.symm, rfl⟩
          rw [hkey]
          exact Dict.get?_eq_none_iff.mpr hfree
        · exact .inl rfl
    · refine .inr ⟨?_, row, List.mem_cons_of_mem _ hrow, hkey, hget⟩
      split at hnone
      · exact hnone
      · rw [Dict.get?_set] at hnone
        split at hnone
        · cases hnone
        · exact hnone

theorem mem_unknown {owners : List String} :
    row ∈ document.unknown owners ↔
      document.lookup row.key = some row ∧ row.state.unresolved = true ∧
        row.owner ∈ owners := by
  rw [unknown, List.mem_mergeSort, List.mem_filter, Dict.mem_values]
  constructor
  · rintro ⟨⟨key, hget⟩, hunresolved⟩
    have hkey := key_of_lookup hget
    simp only [Bool.and_eq_true, decide_eq_true_eq] at hunresolved
    exact ⟨hkey ▸ hget, hunresolved⟩
  · rintro ⟨hget, hunresolved, howner⟩
    refine ⟨⟨row.key, hget⟩, ?_⟩
    simp [hunresolved, howner]

end InputDocument

/-! ### Operations -/

namespace InputDispositions

open InputDocument

variable {digest : String → Digest} {op : InputOp Origin Digest}
  {store changed next : InputDocument Origin Digest} {keys : List InputKey}
  {change : InputAttempt Origin Digest → Checked (InputTransition Digest)}
  {rows start : InputRows Origin Digest} {send : NativeSend} {row : StoredInput Origin Digest}
  {state : InputState Digest} {key : InputKey} {answer : InputDocument Origin Digest}
  {observed : List (StoredInput Origin Digest)} {decision : GoalInputDecision}
  {owners : List String} {attempted : List (ReservedInput Origin)}

theorem update_eq_ok {Answer : Type} {where_ : StoredInput Origin Digest → Bool}
    {change : InputDocument Origin Digest →
      Checked (InputDocument Origin Digest × Answer)} {answer : Answer} :
    update store where_ change = .ok (next, answer) ↔
      ∃ changed, change (store.select where_) = .ok (changed, answer) ∧
        write store changed = next := by
  simp only [update, do_eq_ok, Prod.exists]
  constructor
  · rintro ⟨changed, other, hchange, hnext, rfl⟩
    exact ⟨changed, hchange, hnext⟩
  · rintro ⟨changed, hchange, hnext⟩
    exact ⟨changed, answer, hchange, hnext, rfl⟩

theorem transition_of_update
    {change : InputAttempt Origin Digest → Checked (InputTransition Digest)}
    {answer : InputDocument Origin Digest} (hok : update store (keyIn keys) (fun document => do
      let changed ← document.transition keys change
      pure (changed, changed)) = .ok (next, answer)) :
    ∃ document, (store.select (keyIn keys)).transition keys change = .ok document ∧
      write store document = next := by
  simp only [update_eq_ok, do_eq_ok] at hok
  obtain ⟨_, ⟨document, htransition, rfl, -⟩, hnext⟩ := hok
  exact ⟨document, htransition, hnext⟩

theorem lookup_write (key : InputKey) :
    (write store changed).lookup key = (changed.lookup key).or (store.lookup key) :=
  Dict.get?_update _ _ _

/-- Writing the selected rows back changes nothing. -/
theorem lookup_write_select (store : InputDocument Origin Digest)
    (where_ : StoredInput Origin Digest → Bool) (key : InputKey) :
    (write store (store.select where_)).lookup key = store.lookup key := by
  rw [lookup_write, lookup_select]
  cases store.lookup key with
  | none => rfl
  | some =>
    rw [Option.filter_some]
    split <;> rfl

/-- The row written for a key is the successor of the stored one, if it has any. -/
theorem lookup_write_successors
    (hrows : (store.select (keyIn keys)).successors keys change = .ok rows)
    (hchanged : changed.rows = (store.select (keyIn keys)).rows.update rows) (key : InputKey) :
    (key ∉ keys ∨ rows.get? key = none) ∧
        (write store changed).lookup key = store.lookup key ∨
      key ∈ keys ∧ ∃ row state, store.lookup key = some row ∧
        change (some row) = .ok (.moved state) ∧
        rows.get? key = some { row with state := state } ∧
        (write store changed).lookup key = some { row with state := state } := by
  have hselect := lookup_write_select store (keyIn keys) key
  rw [lookup_write] at hselect
  rw [lookup_write, lookup_of_update hchanged, Option.or_assoc, hselect]
  rcases get?_successors hrows key with ⟨hnot, hnone⟩ | ⟨hmem, result, hresult, hget⟩
  · rw [hnone]
    exact .inl ⟨.inl hnot, rfl⟩
  · rw [lookup_select_keyIn, if_pos hmem] at hresult hget
    cases result with
    | unchanged =>
      rw [hget]
      exact .inl ⟨.inr rfl, rfl⟩
    | moved state =>
      cases hrow : store.lookup key with
      | none =>
        rw [hget, hrow]
        exact .inl ⟨.inr rfl, rfl⟩
      | some row =>
        rw [hrow] at hresult hget
        rw [hget]
        exact .inr ⟨hmem, row, state, rfl, hresult, rfl, rfl⟩

theorem keyStep_of_transition
    (hmoves : ∀ key ∈ keys, ∀ row state, change (some row) = .ok (.moved state) →
      InputState.Moves digest op key row.state state)
    (hok : (store.select (keyIn keys)).transition keys change = .ok changed) (key : InputKey) :
    KeyStep digest op key (store.lookup key) ((write store changed).lookup key) := by
  simp only [transition, bind_eq_ok, make_eq_ok] at hok
  obtain ⟨rows, hrows, hchanged⟩ := hok
  rcases lookup_write_successors hrows hchanged key with
    ⟨-, hsame⟩ | ⟨hmem, row, state, hrow, hchange, -, hnext⟩
  · rw [hsame]
    exact .same _
  · rw [hrow, hnext]
    exact .moved (hmoves key hmem row state hchange)

/-! Each transition moves along an edge. -/

theorem bind_moved (hok : InputAttempt.bind digest (some row) send = .ok (.moved state)) :
    row.state = .reserved ∧ row.claimGeneration = send.claimScope ∧
      state = .boundUnknown ⟨send.turnId, send.nativeId, digest send.text⟩ := by
  unfold InputAttempt.bind at hok
  dsimp only at hok
  split at hok
  next hstate =>
    split at hok
    · cases hok
    next hclaim =>
      cases hok
      exact ⟨hstate, not_not.mp hclaim, rfl⟩
  · simp only [do_eq_ok] at hok
    obtain ⟨-, -, habsurd⟩ := hok
    cases habsurd

theorem moves_of_clearUnbound (hok : InputAttempt.clearUnbound (some row) = .moved state) :
    InputState.Moves digest op key row.state state := by
  unfold InputAttempt.clearUnbound at hok
  split at hok
  next hstate =>
    cases hok
    rw [Option.map_some, Option.some.injEq] at hstate
    rw [hstate]
    exact .clearedUnsent
  · cases hok

theorem moves_of_finishUnbound (hok : InputAttempt.finishUnbound (some row) = .moved state) :
    InputState.Moves digest op key row.state state := by
  unfold InputAttempt.finishUnbound at hok
  split at hok
  next hstate =>
    cases hok
    rw [Option.map_some, Option.some.injEq] at hstate
    rw [hstate]
    exact .notSent
  · cases hok

theorem moves_of_contextCommitted [DecidableEq Digest] {claim : ContextClaim}
    (hok : InputAttempt.contextCommitted digest (some row) claim.lease claim.sentText
      claim.context claim.snapshot = .ok (.moved state)) :
    InputState.Moves digest op key row.state state := by
  unfold InputAttempt.contextCommitted at hok
  dsimp only at hok
  split at hok
  · simp only [bind_eq_ok] at hok
    obtain ⟨-, -, hok⟩ := hok
    unfold InputAttempt.recordContext at hok
    split at hok
    next binding hstate =>
      cases hok
      rw [hstate]
      exact .context binding _
    · simp only [do_eq_ok] at hok
      obtain ⟨-, -, habsurd⟩ := hok
      cases habsurd
    · cases hok
  · cases hok

/-! What each operation does to a key. -/

theorem keyStep_of_recordOriginals {originals : List (ReservedInput Origin)}
    (hok : recordOriginals store originals = .ok (next, answer)) (key : InputKey) :
    KeyStep digest op key (store.lookup key) (next.lookup key) := by
  simp only [recordOriginals, update_eq_ok, do_eq_ok] at hok
  obtain ⟨changed, ⟨recorded, hrecord, rfl, -⟩, rfl⟩ := hok
  rcases record_cases hrecord key with hsame | ⟨hnone, row, hrow, hkey, hget⟩
  · rw [lookup_write, hsame, ← lookup_write, lookup_write_select]
    exact .same _
  · -- the key was selected, so no row is stored under it
    have hmem : key ∈ originals.map fun row => row.key := List.mem_map.mpr ⟨row, hrow, hkey⟩
    have hselected := lookup_select_keyIn store
      (originals.map fun row => row.key) key
    rw [if_pos hmem, hnone] at hselected
    rw [lookup_write, hget, ← hselected, Option.or_none]
    exact .fresh rfl

theorem bindOriginals_whole {answer : Bool}
    (hok : bindOriginals digest store keys send = .ok (next, answer)) :
    BindsWhole digest keys send store next := by
  rw [bindOriginals, update_eq_ok] at hok
  obtain ⟨changed, hchange, rfl⟩ := hok
  split at hchange
  · cases hchange
    exact .inl (lookup_write_select _ _)
  · simp only [bind_eq_ok] at hchange
    obtain ⟨rows, hrows, hchange⟩ := hchange
    split at hchange
    next hall =>
      simp only [do_eq_ok, make_eq_ok] at hchange
      obtain ⟨bound, hbound, rfl, -⟩ := hchange
      refine .inr ⟨fun key hnot => ?_, fun key hmem => ?_⟩
      · rcases lookup_write_successors hrows hbound key with ⟨-, hsame⟩ | ⟨hmem, -⟩
        · exact hsame
        · exact absurd hmem hnot
      · rcases lookup_write_successors hrows hbound key with
          ⟨hnot | hnone, -⟩ | ⟨-, row, state, hrow, hmoved, -, hnext⟩
        · exact absurd hmem hnot
        · -- every key of the batch has a successor
          exact absurd (hall key hmem) (Dict.get?_eq_none_iff.mp hnone)
        · obtain ⟨hreserved, hclaim, rfl⟩ := bind_moved hmoved
          exact ⟨row, hrow, hreserved, hclaim, hnext⟩
    · cases hchange
      exact .inl (lookup_write_select _ _)

theorem keyStep_of_bindsWhole (hwhole : BindsWhole digest keys send store next) (key : InputKey) :
    KeyStep digest op key (store.lookup key) (next.lookup key) := by
  rcases hwhole with hsame | ⟨hothers, hbound⟩
  · rw [hsame]
    exact .same _
  · by_cases hmem : key ∈ keys
    · obtain ⟨row, hrow, hreserved, -, hnext⟩ := hbound key hmem
      rw [hrow, hnext]
      apply KeyStep.moved
      rw [hreserved]
      exact .bound _
    · rw [hothers key hmem]
      exact .same _

theorem reviews_cases {goalId : String} {reviews : InputRows Origin Digest}
    (hok : keys.foldlM (fun reviews key => do
      let row ← orRefuse (rows.get? key)
        (InputError.valueError "Reviewed inputs changed; inspect them again.")
      let reviewed ← row.review goalId decision
      pure (reviews.set key reviewed)) start = .ok reviews) (key : InputKey) :
    key ∉ keys ∧ reviews.get? key = start.get? key ∨
      key ∈ keys ∧ ∃ row, rows.get? key = some row ∧ row.state.unresolved = true ∧
        reviews.get? key = some (row.reviewed goalId decision) := by
  induction keys generalizing start with
  | nil =>
    cases hok
    exact .inl ⟨List.not_mem_nil, rfl⟩
  | cons first keys ih =>
    rw [List.foldlM_cons, bind_eq_ok] at hok
    obtain ⟨middle, hmiddle, hrest⟩ := hok
    simp only [StoredInput.review, do_eq_ok] at hmiddle
    obtain ⟨row, hrow, reviewed, ⟨-, hunresolved, rfl⟩, rfl⟩ := hmiddle
    rcases ih hrest with ⟨hnot, hsame⟩ | ⟨hmem, hreviewed⟩
    · by_cases hfirst : key = first
      · subst hfirst
        refine .inr ⟨List.mem_cons_self, row, hrow, hunresolved, ?_⟩
        rw [hsame, Dict.get?_set_self]
      · refine .inl ⟨by simp [hfirst, hnot], ?_⟩
        rw [hsame, Dict.get?_set_of_ne _ _ hfirst]
    · exact .inr ⟨List.mem_cons_of_mem _ hmem, hreviewed⟩

theorem bindTurnInput_whole [DecidableEq Digest] {alreadyBound answer : Bool}
    (hok : bindTurnInput digest store keys send alreadyBound = .ok (next, answer)) :
    BindsWhole digest keys send store next := by
  simp only [bindTurnInput, bind_eq_ok] at hok
  obtain ⟨-, -, hok⟩ := hok
  split at hok
  · cases hok
    exact .inl fun _ => rfl
  · split at hok
    · cases hok
      exact .inl fun _ => rfl
    · exact bindOriginals_whole hok

/-- A row of the recorded selection is the stored one, or none is stored. -/
theorem stored_of_recorded {recorded : InputDocument Origin Digest}
    (hok : (store.select (ownedOrAttempted owners attempted)).record attempted = .ok recorded)
    (hget : recorded.lookup key = some row) :
    store.lookup key = some row ∨ store.lookup key = none := by
  rcases record_cases hok key with hsame | ⟨hnone, attempt, hattempt, hkey, -⟩
  · rw [hsame, lookup_select, Option.filter_eq_some_iff] at hget
    exact .inl hget.1
  · -- every stored row of an attempted key is selected
    rw [lookup_select] at hnone
    cases hstored : store.lookup key with
    | none => exact .inr rfl
    | some stored =>
      have hselected : ownedOrAttempted owners attempted stored = true := by
        have hmem : stored.key ∈ attempted.map fun row => row.key := by
          rw [key_of_lookup hstored]
          exact List.mem_map.mpr ⟨attempt, hattempt, hkey⟩
        simp [ownedOrAttempted, hmem]
      rw [hstored, Option.filter_some, if_pos hselected] at hnone
      cases hnone

theorem keyStep_of_dismissHistorical {scope : InputDeliveryScope}
    (hok : dismissHistorical store owners attempted scope = .ok (next, answer)) (key : InputKey) :
    KeyStep digest op key (store.lookup key) (next.lookup key) := by
  rw [dismissHistorical, update_eq_ok] at hok
  obtain ⟨changed, hchange, rfl⟩ := hok
  simp only [do_eq_ok, make_eq_ok] at hchange
  obtain ⟨recorded, hrecorded, written, hwritten, rfl, -⟩ := hchange
  have hselect := lookup_write_select store (ownedOrAttempted owners attempted) key
  rw [lookup_write] at hselect
  rw [lookup_write, lookup_of_update hwritten, Option.or_assoc, hselect,
    Dict.get?_foldl_set_last (fun row : StoredInput Origin Digest => row.key)
      StoredInput.dismissed, Dict.get?_empty, Option.or_none]
  cases hlast : List.getLast? _ with
  | none => exact .same _
  | some row =>
    -- the last notice of the key is a recorded row of it
    obtain ⟨hrow, hkey⟩ := List.mem_filter.mp (List.mem_of_getLast? hlast)
    obtain ⟨hrecord, hunresolved, -⟩ := mem_unknown.mp (List.mem_filter.mp hrow).1
    rw [of_decide_eq_true hkey] at hrecord
    rcases stored_of_recorded hrecorded hrecord with hstored | hfree
    · rw [hstored]
      exact .noted row true fun _ hother => hother
    · rw [hfree]
      exact .fresh hunresolved

variable [DecidableEq Origin] [DecidableEq Digest]

/-- The rows a review looks at: the selected ones, and observed ones with no row. -/
theorem observed_cases (hok : observed.foldlM (observe keys) start = .ok rows) (key : InputKey) :
    rows.get? key = start.get? key ∨ start.get? key = none ∧ key ∈ keys := by
  induction observed generalizing start with
  | nil =>
    cases hok
    exact .inl rfl
  | cons row observed ih =>
    rw [List.foldlM_cons, bind_eq_ok] at hok
    obtain ⟨middle, hmiddle, hrest⟩ := hok
    simp only [observe, do_eq_ok] at hmiddle
    obtain ⟨-, ⟨hkeys, -⟩, hmiddle⟩ := hmiddle
    rcases ih hrest with hsame | ⟨hnone, hkey⟩
    · rw [hsame, ← hmiddle]
      split
      · exact .inl rfl
      next hfree =>
        rw [Dict.get?_set]
        split
        next hkey =>
          subst hkey
          exact .inr ⟨Dict.get?_eq_none_iff.mpr hfree, hkeys⟩
        · exact .inl rfl
    · refine .inr ⟨?_, hkey⟩
      rw [← hmiddle] at hnone
      split at hnone
      · exact hnone
      · rw [Dict.get?_set] at hnone
        split at hnone
        · cases hnone
        · exact hnone

theorem keyStep_of_reviewForGoal {goalId : String}
    (hok : reviewForGoal store keys owners goalId decision observed = .ok (next, answer))
    (key : InputKey) : KeyStep digest op key (store.lookup key) (next.lookup key) := by
  rw [reviewForGoal, update_eq_ok] at hok
  obtain ⟨changed, hchange, rfl⟩ := hok
  simp only [bind_eq_ok] at hchange
  obtain ⟨rows, hrows, -, -, hchange⟩ := hchange
  split at hchange
  · cases hchange
    rw [lookup_write_select]
    exact .same _
  · simp only [do_eq_ok, make_eq_ok] at hchange
    obtain ⟨reviews, hreviews, written, hwritten, rfl, -⟩ := hchange
    have hselected := lookup_select_keyIn store keys key
    have hlookup : written.lookup key = (reviews.get? key).or (rows.get? key) := by
      rw [lookup, hwritten, Dict.get?_update]
    rw [lookup_write, hlookup]
    rcases reviews_cases hreviews key with ⟨hnot, hnone⟩ | ⟨hmem, row, hrow, hunresolved, hget⟩
    · -- a key that is not reviewed was not selected and has no observed row
      rw [if_neg hnot] at hselected
      rcases observed_cases hrows key with hsame | ⟨-, habsurd⟩
      · have hrows' : rows.get? key = none := hsame.trans hselected
        rw [hnone, hrows']
        exact .same _
      · exact absurd habsurd hnot
    · rw [if_pos hmem] at hselected
      rw [hget]
      rcases observed_cases hrows key with hsame | ⟨hnone, -⟩
      · have hstored : store.lookup key = some row := hselected.symm.trans (hsame.symm.trans hrow)
        rw [hstored]
        exact .noted row _ fun other hother => Dict.mem_set.mpr (.inr hother)
      · have hfree : store.lookup key = none := hselected.symm.trans hnone
        rw [hfree]
        exact .fresh hunresolved

end InputDispositions

open InputDispositions

/-- Under a key with a stored row, only that row is reported. -/
theorem unresolved_stored {reported : InputDocument Origin Digest} {owners : List String}
    {attempted : List (ReservedInput Origin)}
    (hok : unresolved store owners attempted = .ok reported) {stored : StoredInput Origin Digest}
    (hreported : reported.lookup key = some row) (hstored : store.lookup key = some stored) :
    row = stored ∧ stored.state.unresolved = true := by
  simp only [unresolved, bind_eq_ok, InputDocument.make_eq_ok] at hok
  obtain ⟨recorded, hrecorded, hrows⟩ := hok
  have hmem : row ∈ recorded.unknown owners ∧ row.key = key := by
    rw [InputDocument.lookup, hrows, Dict.get?_foldl_set_last
      (fun row : StoredInput Origin Digest => row.key) (fun row => row), Dict.get?_empty,
      Option.or_none, Option.map_id'] at hreported
    have hmem := List.mem_filter.mp (List.mem_of_getLast? hreported)
    exact ⟨hmem.1, of_decide_eq_true hmem.2⟩
  obtain ⟨hlookup, hunresolved, -⟩ := InputDocument.mem_unknown.mp hmem.1
  rw [hmem.2] at hlookup
  rcases stored_of_recorded hrecorded hlookup with hsame | hnone
  · have hrow : stored = row := Option.mem_unique hstored hsame
    exact ⟨hrow.symm, hrow ▸ hunresolved⟩
  · rw [hstored] at hnone
    cases hnone

variable {digest : String → Digest} [DecidableEq Origin] [DecidableEq Digest]

/-- Every operation leaves, stores, notes or moves the row of a key. -/
theorem InputOp.keyStep {next : InputDocument Origin Digest} (hok : op.step digest store = .ok next)
    (key : InputKey) : KeyStep digest op key (store.lookup key) (next.lookup key) := by
  cases op <;> obtain ⟨⟨_, answer⟩, hstep, rfl⟩ := map_eq_ok.mp hok
  case recordOriginals => exact keyStep_of_recordOriginals hstep key
  case reserveOriginals =>
    simp only [InputDispositions.reserveOriginals, do_eq_ok, Prod.exists] at hstep
    obtain ⟨written, document, hrecord, rfl, -⟩ := hstep
    exact keyStep_of_recordOriginals hrecord key
  case bindOriginals => exact keyStep_of_bindsWhole (bindOriginals_whole hstep) key
  case bindTurnInput => exact keyStep_of_bindsWhole (bindTurnInput_whole hstep) key
  case started =>
    obtain ⟨document, htransition, rfl⟩ := transition_of_update hstep
    refine keyStep_of_transition (fun other hother row state hmoved => ?_) htransition key
    rw [List.mem_singleton] at hother
    subst hother
    rw [Except.ok.injEq, InputAttempt.started] at hmoved
    split at hmoved
    next binding hstate =>
      split at hmoved
      next hbinding =>
        cases hmoved
        rw [Option.map_some, Option.some.injEq] at hstate
        rw [hstate, hbinding]
        exact .started rfl
      · cases hmoved
    · cases hmoved
  case clearUnbound =>
    obtain ⟨document, htransition, rfl⟩ := transition_of_update hstep
    exact keyStep_of_transition (fun other _ row state hmoved =>
      moves_of_clearUnbound (Except.ok.inj hmoved)) htransition key
  case clearNative =>
    obtain ⟨document, htransition, rfl⟩ := transition_of_update hstep
    refine keyStep_of_transition (fun other _ row state hmoved => ?_) htransition key
    unfold InputAttempt.clearNative at hmoved
    split at hmoved
    next binding hstate =>
      split at hmoved <;> cases hmoved
      rw [Option.map_some, Option.some.injEq] at hstate
      rw [hstate]
      exact .clearedNative binding
    · cases hmoved
  case settleUnbound =>
    obtain ⟨document, htransition, rfl⟩ := transition_of_update hstep
    exact keyStep_of_transition (fun other _ row state hmoved =>
      moves_of_finishUnbound (Except.ok.inj hmoved)) htransition key
  case contextCommitted =>
    simp only [InputDispositions.contextCommitted, bind_eq_ok] at hstep
    obtain ⟨-, -, hstep⟩ := hstep
    rw [update_eq_ok] at hstep
    obtain ⟨changed, hchange, rfl⟩ := hstep
    simp only [do_eq_ok] at hchange
    obtain ⟨-, -, -, -, document, htransition, rfl, -⟩ := hchange
    exact keyStep_of_transition (fun other _ row state hmoved =>
      moves_of_contextCommitted hmoved) htransition key
  case reviewForGoal => exact keyStep_of_reviewForGoal hstep key
  case dismissHistorical => exact keyStep_of_dismissHistorical hstep key

/-! ### Runs -/

/-- A refused operation leaves every row, so each step of a run is a key step. -/
theorem keyStep_commit (digest : String → Digest) (op : InputOp Origin Digest)
    (store : InputDocument Origin Digest) (key : InputKey) :
    KeyStep digest op key (store.lookup key) ((commit (op.step digest) store).lookup key) := by
  rcases commit_cases (op.step digest) store with hok | hsame
  · exact op.keyStep hok key
  · rw [hsame]
    exact .same _

theorem run_keeps (ops : List (InputOp Origin Digest)) (hrow : store.lookup key = some row) :
    ∃ later, (run (InputOp.step digest) ops store).lookup key = some later ∧ row.Keeps later := by
  apply run_invariant (fun reached : InputDocument Origin Digest =>
    ∃ later, reached.lookup key = some later ∧ row.Keeps later) _ ops ⟨row, hrow, .refl row⟩
  rintro op before after ⟨middle, hmiddle, hkeeps⟩ hok
  have hstep := op.keyStep hok key
  rw [hmiddle] at hstep
  obtain ⟨later, hlater, hnext⟩ := hstep.keeps
  exact ⟨later, hlater, hkeeps.trans hnext⟩

theorem commit_binds {keys : List InputKey} {send : NativeSend}
    (hbinds : op.binds = some (keys, send)) (store : InputDocument Origin Digest) :
    BindsWhole digest keys send store (commit (op.step digest) store) := by
  rcases commit_cases (op.step digest) store with hok | hsame
  · cases op with
    | bindOriginals =>
      cases hbinds
      obtain ⟨⟨_, answer⟩, hbind, hnext⟩ := map_eq_ok.mp hok
      exact hnext ▸ bindOriginals_whole hbind
    | bindTurnInput =>
      cases hbinds
      obtain ⟨⟨_, answer⟩, hbind, hnext⟩ := map_eq_ok.mp hok
      exact hnext ▸ bindTurnInput_whole hbind
    | _ => cases hbinds
  · rw [hsame]
    exact .inl fun _ => rfl

/-- Along every run a stored input keeps its original, its binding, its context proof, and
its state once it is settled or cleared; a start is recorded only for the stored
binding; a batch binds whole; and no stored key is reported as a new reservation. -/
theorem input_is_bound_at_most_once (digest : String → Digest)
    (store : InputDocument Origin Digest) :
    (∀ ops key row, store.lookup key = some row →
      ∃ later, (run (InputOp.step digest) ops store).lookup key = some later ∧
        row.Keeps later) ∧
    (∀ op key row, (commit (InputOp.step digest op) store).lookup key = some row →
      row.state.hasStarted = true →
        (∃ old, store.lookup key = some old ∧ old.state.hasStarted = true) ∨
        ∃ turnId nativeId text old, op = .started key turnId nativeId text ∧
          store.lookup key = some old ∧
          old.state = .boundUnknown ⟨turnId, nativeId, digest text⟩) ∧
    (∀ op keys send, InputOp.binds op = some (keys, send) →
      BindsWhole digest keys send store (commit (op.step digest) store)) ∧
    ∀ owners attempted reported, unresolved store owners attempted = .ok reported →
      ∀ key row stored, reported.lookup key = some row → store.lookup key = some stored →
        row = stored ∧ stored.state.unresolved = true := by
  refine ⟨fun ops key row hrow => run_keeps ops hrow, ?_, ?_, ?_⟩
  · intro op key row hrow hstarted
    have hstep := keyStep_commit digest op store key
    rw [hrow] at hstep
    exact hstep.started hstarted
  · intro op keys send hbinds
    exact commit_binds hbinds store
  · intro owners attempted reported hok key row stored hreported hstored
    exact unresolved_stored hok hreported hstored

end AgentComms.Inputs
