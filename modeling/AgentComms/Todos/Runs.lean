import AgentComms.Todos.Steps

/-!
# Runs of the Todo store

A transaction is taken apart into elementary changes of the store (`StoreStep`): one row
stepped and stored, a merge stored over the row it was observed from, a row created, a
request changed. A merge result is computed outside the transaction; `Follows` carries what
makes its revision check enough, that a row once read is either still stored or has been
replaced by a later revision.
-/

namespace AgentComms.Todos

open Library
open Registry (RegistrySnapshot)

variable {command : TodoCommand} {row result : Todo} {store store' : TodoStore}

/-! ### The store under a transaction -/

namespace TodoStore

variable {store store' : TodoStore}

structure SameRows (store store' : TodoStore) : Prop where
  todos : store'.todos = store.todos
  requests : store'.requests = store.requests
  writes : store'.writes = store.writes

theorem SameRows.refl (store : TodoStore) : store.SameRows store := ⟨rfl, rfl, rfl⟩

theorem SameRows.trans {first second third : TodoStore} (hfirst : first.SameRows second)
    (hrest : second.SameRows third) : first.SameRows third :=
  ⟨hrest.todos.trans hfirst.todos, hrest.requests.trans hfirst.requests,
    hrest.writes.trans hfirst.writes⟩

structure Told (store store' : TodoStore) : Prop extends SameRows store store' where
  story : store.story <+: store'.story

theorem Told.refl (store : TodoStore) : store.Told store := ⟨.refl store, List.prefix_rfl⟩

theorem Told.trans {first second third : TodoStore} (hfirst : first.Told second)
    (hrest : second.Told third) : first.Told third :=
  ⟨hfirst.toSameRows.trans hrest.toSameRows, hfirst.story.trans hrest.story⟩

theorem told_of_append {problem : ProblemId} {event : StoryEvent}
    (hok : store.append problem event = .ok store') :
    store.Told store' ∧ event ∈ store'.events problem := by
  have hadded : ∃ voids, store' =
      { store with story := store.story ++ [⟨store.story.length + 1, problem, event, voids⟩] } := by
    cases event with
    | voided =>
      simp only [append, do_eq_ok] at hok
      obtain ⟨seq, -, rfl⟩ := hok
      exact ⟨_, rfl⟩
    | _ => exact ⟨none, (Except.ok.inj hok).symm⟩
  obtain ⟨voids, rfl⟩ := hadded
  exact ⟨⟨⟨rfl, rfl, rfl⟩, List.prefix_append ..⟩, by simp [events]⟩

theorem told_of_appends {problem : ProblemId} {events : List StoryEvent}
    (hok : events.foldlM (fun store event => store.append problem event) store = .ok store') :
    store.Told store' :=
  foldlM_invariant store.Told
    (fun _ _ _ _ htold happend => htold.trans (told_of_append happend).1) (.refl store) hok

theorem told_of_archive {following : ProblemOrder}
    (hok : store.archive row following = .ok store') : store.Told store' := by
  refine foldlM_invariant store.Told (fun order _ s t htold hstep => ?_) (.refl store) hok
  simp only at hstep
  split at hstep
  · cases hstep
    exact htold
  · exact htold.trans (told_of_append hstep).1

/-- A row was stored over the one it was computed from, perhaps more than once. -/
structure Stored (store : TodoStore) (origin : Origin) (row result : Todo) (store' : TodoStore) :
    Prop where
  requests : store'.requests = store.requests
  rows : ∀ problem, store'.todos.get? problem =
    if problem = result.id then some result else store.todos.get? problem
  writes : ∃ repeated : List Write,
    store'.writes = store.writes ++ ⟨origin, some row, store.todos.get? result.id, result⟩ ::
      repeated ∧
    ∀ write ∈ repeated, write = ⟨origin, some result, some result, result⟩

theorem stored_upsert {told : TodoStore} (hsame : store.SameRows told) (origin : Origin)
    (row result : Todo)
    : store.Stored origin row result (told.upsert origin (some row) result) where
  requests := hsame.requests
  rows problem := by
    simp only [upsert, Dict.get?_set, hsame.todos]
  writes := ⟨[], by simp [upsert, hsame.writes, hsame.todos], by simp⟩

end TodoStore

/-- What a command writes beside its row keeps the rows; a void stores its row twice. -/
theorem TodoCommand.related_cases {origin : Origin}
    (hok : command.related origin row result store = .ok store') :
    store.Told store' ∨ (∃ actor strike reason voidedAt,
      command.operation = .voidStrike actor strike reason voidedAt) ∧
        store' = store.upsert origin (some result) result := by
  unfold related at hok
  split at hok
  · cases hok
    exact .inl ⟨⟨rfl, rfl, rfl⟩, List.prefix_rfl⟩
  next hop =>
    cases hok
    exact .inr ⟨⟨_, _, _, _, hop⟩, rfl⟩
  · exact .inl (TodoStore.told_of_appends hok)
  · cases hok
    exact .inl (.refl store)

theorem TodoStore.Stored.related {written : TodoStore} {origin : Origin}
    (hstored : store.Stored origin row result written)
    (hok : command.related origin row result written = .ok store') :
    store.Stored origin row result store' := by
  obtain hsame | ⟨-, rfl⟩ := TodoCommand.related_cases hok
  · refine ⟨hsame.requests.trans hstored.requests, fun problem => ?_, ?_⟩
    · rw [hsame.todos]
      exact hstored.rows problem
    · rw [hsame.writes]
      exact hstored.writes
  · refine ⟨hstored.requests, fun problem => ?_, ?_⟩
    · rw [TodoStore.upsert, Dict.get?_set, hstored.rows]
      split <;> rfl
    · obtain ⟨repeated, hwrites, hall⟩ := hstored.writes
      refine ⟨repeated ++ [⟨origin, some result, some result, result⟩], ?_, ?_⟩
      · simp [TodoStore.upsert, hwrites, hstored.rows]
      · intro write hwrite
        rw [List.mem_append, List.mem_singleton] at hwrite
        exact hwrite.elim (hall write) id

/-- What one command does to the store: nothing to its rows, or one step of its row, stored. -/
theorem TodoCommand.write_cases {cut : RegistrySnapshot} {reads : Reads}
    (hok : command.write cut reads row store = .ok store') :
    store.Told store' ∧ command.apply store reads row = .ok row ∨
      ∃ result, command.apply store reads row = .ok result ∧
      RowStep store row command.operation result ∧
      command.validate store cut reads row = .ok () ∧
      (∀ actor newer message, command.operation = .drop actor newer message →
        row.assignment ≠ none) ∧
      store.Stored (.command cut reads command) row result store' ∧
      ∃ archived, store.archive row result.order = .ok archived ∧
        archived.story <+: store'.story := by
  simp only [TodoCommand.write, bind_eq_ok] at hok
  obtain ⟨result, happly, hok⟩ := hok
  split at hok
  next hsame =>
    subst hsame
    obtain htold | ⟨⟨actor, strike, reason, voidedAt, hop⟩, -⟩ := related_cases hok
    · exact .inl ⟨htold, happly⟩
    · -- a void raises the revision, so its result is never the row itself
      obtain ⟨revision, op⟩ := command
      simp only at hop
      subst hop
      simp only [apply, do_eq_ok] at happly
      obtain ⟨_, -, _, -, _, -, _, -, _, -, hnext⟩ := happly
      simpa [Todo.next] using congrArg Todo.revision hnext
  next hchanged =>
    simp only [bind_eq_ok] at hok
    obtain ⟨_, hvalid, archived, harchive, events, hevents, told, htold, hrelated⟩ := hok
    have hstep := (apply_cases happly).resolve_left hchanged
    have htold := TodoStore.told_of_appends htold
    have hrows := (TodoStore.told_of_archive harchive).trans htold
    refine .inr ⟨result, happly, hstep, hvalid, ?_,
      (TodoStore.stored_upsert hrows.toSameRows _ _ _).related hrelated, archived, harchive, ?_⟩
    · intro actor newer message hop hunheld
      obtain ⟨revision, op⟩ := command
      simp only at hop
      subst hop
      simp [historyEvents, hunheld, orRefuse, bind, Except.bind] at hevents
    · obtain hlater | ⟨-, rfl⟩ := related_cases hrelated
      · exact htold.story.trans hlater.story
      · exact htold.story

/-! ### Merges -/

inductive MergeStep (row : Todo) : Todo → Prop
  | closed {order : ProblemOrder} (hclose : order.requireClose = .ok ()) :
      MergeStep row (row.closedWith order)
  | waiting {order : ProblemOrder} (hdeliverable : order.deliverable = false)
      (hevidence : order.evidence? = row.order.evidence?) :
      MergeStep row { row.next with order := order }
  | reissued {declared : Declaration} (hdeliverable : row.order.deliverable = true) :
      MergeStep row { row.next with order := .pending declared }

theorem Todo.closedByMerge_cases {observed : MergeObservation}
    (hok : row.closedByMerge observed = .ok result) : result = row ∨ MergeStep row result := by
  cases observed with
  | merged =>
    simp only [Todo.closedByMerge, do_eq_ok] at hok
    obtain ⟨merged, hmerged, declared, -, hok⟩ := hok
    obtain ⟨hdeliverable, hevidence⟩ :
        merged.deliverable = false ∧ merged.evidence? = row.order.evidence? := by
      cases hbefore : row.order <;> rw [hbefore] at hmerged <;> cases hmerged <;> exact ⟨rfl, rfl⟩
    split at hok
    · obtain ⟨hclose, rfl⟩ := Todo.closed_eq_ok hok
      exact .inr (.closed hclose)
    · rw [pure_eq_ok, Todo.waitingIn] at hok
      split at hok
      · exact .inl hok.symm
      · exact .inr (hok ▸ .waiting hdeliverable hevidence)
  | requestClosed =>
    simp only [Todo.closedByMerge] at hok
    split at hok
    next horder =>
      cases hok
      exact .inr (.reissued (by rw [horder]; rfl))
    next horder =>
      cases hok
      exact .inr (.reissued (by rw [horder]; rfl))
    · cases hok

namespace MergeStep

variable {row result : Todo}

theorem id_eq (hstep : MergeStep row result) : result.id = row.id := by
  cases hstep <;> rfl

theorem revision_eq (hstep : MergeStep row result) : result.revision = row.revision + 1 := by
  cases hstep <;> rfl

end MergeStep

/-! ### Runs -/

/-- A condition on a command and the row it is applied to. -/
abbrev Condition := TodoStore → TodoCommand → Todo → Prop

/-- The elementary changes of the store. -/
inductive StoreStep (meets : Condition) : TodoStore → TodoStore → Prop
  | told {store store' : TodoStore} (hsame : store.SameRows store') : StoreStep meets store store'
  | command {store store' : TodoStore} {cut : RegistrySnapshot} {reads : Reads}
      {command : TodoCommand} {row result : Todo}
      (hrow : store.todos.get? row.id = some row) (hmeets : meets store command row)
      (happly : command.apply store reads row = .ok result)
      (hstep : RowStep store row command.operation result)
      (hvalid : command.validate store cut reads row = .ok ())
      (hdrop : ∀ actor newer message, command.operation = .drop actor newer message →
        row.assignment ≠ none)
      (hstored : store.Stored (.command cut reads command) row result store') :
      StoreStep meets store store'
  | merge {store store' : TodoStore} {observed : MergeObservation} {row result : Todo}
      (hrow : store.todos.get? row.id = some row) (hopen : row.state ≠ .done)
      (hresult : row.closedByMerge observed = .ok result)
      (hstep : MergeStep row result) (hstored : store.Stored (.merge observed) row result store') :
      StoreStep meets store store'
  | create {store : TodoStore} {new : NewTodo} {asked : OwnerRequest}
      (hfresh : store.todos.get? new.id = none)
      (hasked : store.requests.get? new.request = some asked) (hopen : asked.state = .open) :
      StoreStep meets store (store.upsert .creation none new.row)
  | request {store : TodoStore} {request : RequestId} {asked : OwnerRequest}
      (hstate : asked.state = .open ∧
          (∀ old, store.requests.get? request = some old → old.state = .open) ∨
        store.serving request = []) :
      StoreStep meets store { store with requests := store.requests.set request asked }

def TodoStore.Keyed (store : TodoStore) : Prop :=
  ∀ problem row, store.todos.get? problem = some row → row.id = problem

/-- A row read earlier is still the stored one, or a later revision replaced it. -/
def TodoStore.Follows (store : TodoStore) (read : Todo) : Prop :=
  ∃ row, store.todos.get? read.id = some row ∧ (read = row ∨ read.revision < row.revision)

namespace StoreStep

variable {meets : Condition} {store store' : TodoStore}

variable (hstep : StoreStep meets store store')
include hstep

/-- A step keeps every row, or stores one row over another, or creates one. -/
theorem rows_cases :
    store'.todos = store.todos ∨
      (∃ row result : Todo, store.todos.get? row.id = some row ∧ result.id = row.id ∧
        result.revision = row.revision + 1 ∧ ∀ problem, store'.todos.get? problem =
          if problem = row.id then some result else store.todos.get? problem) ∨
      ∃ new : NewTodo, store.todos.get? new.id = none ∧
        store'.todos = store.todos.set new.id new.row := by
  cases hstep with
  | told hsame => exact .inl hsame.todos
  | command hrow _ _ hstep _ _ hstored | merge hrow _ _ hstep hstored =>
    refine .inr (.inl ⟨_, _, hrow, hstep.id_eq, hstep.revision_eq, fun problem => ?_⟩)
    rw [hstored.rows, hstep.id_eq]
  | create hfresh => exact .inr (.inr ⟨_, hfresh, rfl⟩)
  | request => exact .inl rfl

theorem keyed (hkeyed : store.Keyed) : store'.Keyed := by
  intro problem row hrow
  obtain hsame | ⟨old, result, -, hid, -, hrows⟩ | ⟨new, -, hnew⟩ := hstep.rows_cases
  · exact hkeyed problem row (hsame ▸ hrow)
  · rw [hrows] at hrow
    split at hrow
    next hproblem =>
      cases hrow
      rw [hid, hproblem]
    · exact hkeyed problem row hrow
  · rw [hnew] at hrow
    rcases Dict.get?_set_eq_some.mp hrow with ⟨hproblem, rfl⟩ | ⟨-, hrow⟩
    · exact hproblem.symm
    · exact hkeyed problem row hrow

theorem follows {read : Todo} (hfollows : store.Follows read) : store'.Follows read := by
  obtain ⟨row, hrow, hlater⟩ := hfollows
  obtain hsame | ⟨old, result, hold, hid, hrevision, hrows⟩ | ⟨new, hfresh, hnew⟩ :=
    hstep.rows_cases
  · exact ⟨row, hsame ▸ hrow, hlater⟩
  · by_cases hproblem : read.id = old.id
    · rw [hproblem, hold] at hrow
      cases hrow
      refine ⟨result, by rw [hrows, if_pos hproblem], .inr ?_⟩
      obtain rfl | hlt := hlater <;> omega
    · exact ⟨row, by rw [hrows, if_neg hproblem, hrow], hlater⟩
  · refine ⟨row, ?_, hlater⟩
    rw [hnew, Dict.get?_set_of_ne _ _ (fun hproblem => ?_), hrow]
    rw [hproblem, hfresh] at hrow
    cases hrow

/-- What holds of every old row and of the rows a step stores holds of every row. -/
theorem forall_rows {P : Todo → Prop}
    (hold : ∀ problem row, store.todos.get? problem = some row → P row)
    (hcommand : ∀ cut reads command row result, store.todos.get? row.id = some row →
      meets store command row → RowStep store row command.operation result →
      command.validate store cut reads row = .ok () →
      (∀ actor newer message, command.operation = .drop actor newer message →
        row.assignment ≠ none) → P result)
    (hmerge : ∀ row result, store.todos.get? row.id = some row → row.state ≠ .done →
      MergeStep row result → P result)
    (hcreate : ∀ (new : NewTodo) asked, store.requests.get? new.request = some asked →
      asked.state = .open → P new.row) :
    ∀ problem row, store'.todos.get? problem = some row → P row := by
  intro problem row hrow
  cases hstep with
  | told hsame => exact hold problem row (hsame.todos ▸ hrow)
  | command hcurrent hmeets _ hstep hvalid hdrop hstored =>
    rw [hstored.rows] at hrow
    split at hrow
    · cases hrow
      exact hcommand _ _ _ _ _ hcurrent hmeets hstep hvalid hdrop
    · exact hold problem row hrow
  | merge hcurrent hopen _ hstep hstored =>
    rw [hstored.rows] at hrow
    split at hrow
    · cases hrow
      exact hmerge _ _ hcurrent hopen hstep
    · exact hold problem row hrow
  | create _ hasked hopen =>
    rcases Dict.get?_set_eq_some.mp hrow with ⟨-, rfl⟩ | ⟨-, hrow⟩
    · exact hcreate _ _ hasked hopen
    · exact hold problem row hrow
  | request => exact hold problem row hrow

/-- A step follows each row: the row stays, or one command or merge replaced it. -/
theorem follow_row {problem : ProblemId}
    (hkeyed : store.Keyed) (hrow : store.todos.get? problem = some row) :
    store'.todos.get? problem = some row ∨
      (∃ cut reads command result, meets store command row ∧
        RowStep store row command.operation result ∧
        command.validate store cut reads row = .ok () ∧
        (∀ actor newer message, command.operation = .drop actor newer message →
          row.assignment ≠ none) ∧ store'.todos.get? problem = some result) ∨
      ∃ result, row.state ≠ .done ∧ MergeStep row result ∧
        store'.todos.get? problem = some result := by
  have hid := hkeyed problem row hrow
  cases hstep with
  | told hsame => exact .inl (hsame.todos ▸ hrow)
  | command hcurrent hmeets _ hstep hvalid hdrop hstored =>
    rw [hstored.rows, hstep.id_eq]
    split
    next hproblem =>
      rw [← hproblem, hrow] at hcurrent
      cases hcurrent
      exact .inr (.inl ⟨_, _, _, _, hmeets, hstep, hvalid, hdrop, rfl⟩)
    · exact .inl hrow
  | merge hcurrent hopen _ hstep hstored =>
    rw [hstored.rows, hstep.id_eq]
    split
    next hproblem =>
      rw [← hproblem, hrow] at hcurrent
      cases hcurrent
      exact .inr (.inr ⟨_, hopen, hstep, rfl⟩)
    · exact .inl hrow
  | @create new _ hfresh _ _ =>
    refine .inl ?_
    rw [TodoStore.upsert, Dict.get?_set_of_ne _ _ (fun hsame => ?_), hrow]
    have hfresh' : store.todos.get? problem = none := hsame ▸ hfresh
    rw [hrow] at hfresh'
    cases hfresh'
  | request => exact .inl hrow

end StoreStep

/-- What the store and the board reads keep: rows under their ids, and every board row open
and followed by the stored one. -/
structure TodoWorld.Tracked (world : TodoWorld) : Prop where
  keyed : world.store.Keyed
  board : ∀ read ∈ world.board, read.state ≠ .done ∧ world.store.Follows read

theorem TodoWorld.tracked_empty : TodoWorld.empty.Tracked where
  keyed := by simp [TodoStore.Keyed, TodoWorld.empty, TodoStore.empty]
  board := by simp [TodoWorld.empty]

abbrev StoreSteps (meets : Condition) := Relation.ReflTransGen (StoreStep meets)

theorem TodoWorld.Tracked.steps {meets : Condition} {world : TodoWorld}
    (htracked : world.Tracked) (hsteps : StoreSteps meets world.store store') :
    TodoWorld.Tracked { world with store := store' } := by
  induction hsteps with
  | refl => exact htracked
  | tail _ hstep ih =>
    exact ⟨hstep.keyed ih.keyed, fun read hread =>
      ⟨(ih.board read hread).1, hstep.follows (ih.board read hread).2⟩⟩

/-- The commands of a batch meet the condition, each on the row the earlier ones left. -/
def BatchMeets (meets : Condition) (cut : RegistrySnapshot) :
    List ProblemCommand → TodoStore → Prop
  | [], _ => True
  | command :: rest, store =>
    (∀ row, store.todos.get? command.problem = some row → meets store command.command row) ∧
      ∀ store', command.write cut store = .ok store' → BatchMeets meets cut rest store'

def StoreOp.Meets (meets : Condition) (world : TodoWorld) : StoreOp → Prop
  | .applyTogether cut commands => BatchMeets meets cut commands world.store
  | _ => True

def StoreOp.Records (records : MergeResult → Prop) : StoreOp → Prop
  | .recordMerges completed => ∀ merge ∈ completed, records merge
  | _ => True

/-- The calls an operation is made of, each on a row as it is stored when its turn comes. -/
inductive StoreCall (meets : Condition) (records : MergeResult → Prop) :
    TodoStore → TodoStore → Prop
  | write {store store' : TodoStore} {cut : RegistrySnapshot} {reads : Reads}
      {command : TodoCommand} {row : Todo} (hrow : store.todos.get? row.id = some row)
      (hmeets : meets store command row) (hok : command.write cut reads row store = .ok store') :
      StoreCall meets records store store'
  | record {store store' : TodoStore} {merge : MergeResult} (hrecords : records merge)
      (hopen : merge.row.state ≠ .done) (hfollows : store.Follows merge.row)
      (hok : merge.record store = .ok store') : StoreCall meets records store store'
  | create {store store' : TodoStore} {new : NewTodo} {reads : Reads}
      (hok : new.create reads store = .ok store') : StoreCall meets records store store'
  | request {store : TodoStore} {request : RequestId} {asked : OwnerRequest}
      (hstate : asked.state = .open ∧
          (∀ old, store.requests.get? request = some old → old.state = .open) ∨
        store.serving request = []) :
      StoreCall meets records store { store with requests := store.requests.set request asked }

abbrev StoreCalls (meets : Condition) (records : MergeResult → Prop) :=
  Relation.ReflTransGen (StoreCall meets records)

section Runs

variable {meets : Condition} {records : MergeResult → Prop}
  {store store' : TodoStore}

/-- A merge result is stored only over the row it was observed from. -/
theorem MergeResult.record_cases {merge : MergeResult} (hfollows : store.Follows merge.row)
    (hok : merge.record store = .ok store') :
    store' = store ∨ store.todos.get? merge.row.id = some merge.row ∧ ∃ result,
      merge.row.closedByMerge merge.observed = .ok result ∧ MergeStep merge.row result ∧
      store' = store.upsert (.merge merge.observed) (some merge.row) result := by
  simp only [MergeResult.record, TodoStore.current, do_eq_ok] at hok
  obtain ⟨result, hresult, current, hcurrent, hok⟩ := hok
  obtain ⟨row, hrow, hlater⟩ := hfollows
  split at hok <;> rw [pure_eq_ok] at hok <;> subst hok
  next hrevision =>
    obtain rfl | hstep := Todo.closedByMerge_cases hresult
    · -- an unchanged row asks for the revision before its own, which is gone
      rw [hrow] at hcurrent
      cases hcurrent
      obtain rfl | hlt := hlater <;> omega
    · rw [hstep.id_eq, hrow] at hcurrent
      cases hcurrent
      have hnext := hstep.revision_eq
      obtain rfl := hlater.resolve_right (by omega)
      exact .inr ⟨hrow, result, hresult, hstep, rfl⟩
  · exact .inl rfl

theorem NewTodo.create_cases {new : NewTodo} {reads : Reads}
    (hok : new.create reads store = .ok store') :
    store' = store ∨ store' = store.upsert .creation none new.row ∧
      store.todos.get? new.id = none ∧
      ∃ asked, store.requests.get? new.request = some asked ∧ asked.state = .open := by
  simp only [NewTodo.create, TodoStore.request, OwnerRequest.requireOpen, do_eq_ok] at hok
  obtain ⟨_, -, _, -, _, -, _, -, _, -, _, -, asked, hasked, _, ⟨_, -, hopen⟩, hok⟩ := hok
  split at hok
  next hfresh => exact .inr ⟨(pure_eq_ok.mp hok).symm, hfresh, asked, hasked, hopen⟩
  · simp only [do_eq_ok] at hok
    obtain ⟨_, -, _, -, rfl⟩ := hok
    exact .inl rfl

/-- Every call is one elementary change. -/
theorem StoreCall.step (hcall : StoreCall meets records store store') :
    StoreStep meets store store' := by
  cases hcall with
  | write hrow hmeets hok =>
    obtain ⟨htold, -⟩ | ⟨result, happly, hstep, hvalid, hdrop, hstored, -⟩ :=
      TodoCommand.write_cases hok
    · exact .told htold.toSameRows
    · exact .command hrow hmeets happly hstep hvalid hdrop hstored
  | record _ hopen hfollows hok =>
    obtain rfl | ⟨hrow, result, hresult, hstep, rfl⟩ := MergeResult.record_cases hfollows hok
    · exact .told (.refl _)
    · exact .merge hrow hopen hresult hstep (TodoStore.stored_upsert (.refl _) _ _ _)
  | create hok =>
    obtain rfl | ⟨rfl, hfresh, asked, hasked, hopen⟩ := NewTodo.create_cases hok
    · exact .told (.refl _)
    · exact .create hfresh hasked hopen
  | request hstate => exact .request hstate

theorem steps_of_calls (hcalls : StoreCalls meets records store store') :
    StoreSteps meets store store' :=
  hcalls.lift id fun _ _ => StoreCall.step

theorem calls_of_batch {cut : RegistrySnapshot} {commands : List ProblemCommand}
    (hkeyed : store.Keyed) (hmeets : BatchMeets meets cut commands store)
    (hok : commands.foldlM (fun store command => command.write cut store) store = .ok store') :
    StoreCalls meets records store store' := by
  induction commands generalizing store with
  | nil =>
    cases hok
    exact .refl
  | cons command rest ih =>
    rw [List.foldlM_cons, bind_eq_ok] at hok
    obtain ⟨mid, hmid, hrest⟩ := hok
    have hwrite := hmid
    simp only [ProblemCommand.write, TodoStore.current, do_eq_ok] at hwrite
    obtain ⟨row, hrow, hwrite⟩ := hwrite
    have hcall : StoreCall meets records store mid :=
      .write (hkeyed _ _ hrow ▸ hrow) (hmeets.1 row hrow) hwrite
    exact .head hcall (ih (hcall.step.keyed hkeyed) (hmeets.2 mid hmid) hrest)

/-- Commands on rows captured at the start of a transaction, each on another problem, find
their rows unchanged when their turn comes. -/
theorem calls_of_captured (cut : RegistrySnapshot) (reads : Reads) {rows : List Todo}
    {call : TodoStore → Todo → Checked TodoStore}
    (hcall : ∀ written row mid, call written row = .ok mid → ∃ command : TodoCommand,
      meets written command row ∧ command.write cut reads row written = .ok mid)
    (hrows : ∀ row ∈ rows, store.todos.get? row.id = some row) (hids : (rows.map Todo.id).Nodup)
    (hok : rows.foldlM call store = .ok store') : StoreCalls meets records store store' := by
  induction rows generalizing store with
  | nil =>
    cases hok
    exact .refl
  | cons row rest ih =>
    rw [List.foldlM_cons, bind_eq_ok] at hok
    obtain ⟨mid, hmid, hrest⟩ := hok
    rw [List.map_cons, List.nodup_cons] at hids
    have hrow := hrows row List.mem_cons_self
    have hothers : ∀ other ∈ rest, store.todos.get? other.id = some other := fun other hother =>
      hrows other (List.mem_cons_of_mem _ hother)
    obtain ⟨command, hmeets, hwrite⟩ := hcall store row mid hmid
    refine .head (.write hrow hmeets hwrite) (ih (fun other hother => ?_) hids.2 hrest)
    obtain ⟨hsame, -⟩ | ⟨result, -, hstep, -, -, hstored, -⟩ := TodoCommand.write_cases hwrite
    · exact hsame.todos ▸ hothers other hother
    · rw [hstored.rows, if_neg, hothers other hother]
      rw [hstep.id_eq]
      exact fun hsame => hids.1 (hsame ▸ List.mem_map_of_mem hother)

theorem TodoStore.mem_heldIn (hkeyed : store.Keyed) {unit : Nat} (hmem : row ∈ store.heldIn unit)
    : store.todos.get? row.id = some row := by
  obtain ⟨problem, hget⟩ := Dict.mem_values.mp (List.mem_of_mem_filter hmem)
  exact hkeyed problem row hget ▸ hget

theorem TodoStore.heldIn_nodup (hkeyed : store.Keyed) (unit : Nat) :
    ((store.heldIn unit).map Todo.id).Nodup := by
  have hids : (store.todos.values.map Todo.id).Nodup := by
    refine Dict.nodup_map_values.mpr fun first second row other hrow hother hid => ?_
    rw [← hkeyed first row hrow, ← hkeyed second other hother, hid]
  exact hids.sublist (List.filter_sublist.map _)

theorem calls_of_merges {completed : List MergeResult}
    (hrecords : ∀ merge ∈ completed, records merge)
    (hboard : ∀ merge ∈ completed, merge.row.state ≠ .done ∧ store.Follows merge.row)
    (hok : completed.foldlM (fun store merge => merge.record store) store = .ok store') :
    StoreCalls meets records store store' := by
  induction completed generalizing store with
  | nil =>
    cases hok
    exact .refl
  | cons merge rest ih =>
    rw [List.foldlM_cons, bind_eq_ok] at hok
    obtain ⟨mid, hmid, hrest⟩ := hok
    obtain ⟨hopen, hfollows⟩ := hboard merge List.mem_cons_self
    have hcall : StoreCall meets records store mid :=
      .record (hrecords merge List.mem_cons_self) hopen hfollows hmid
    refine .head hcall (ih (fun other hother => hrecords other (List.mem_cons_of_mem _ hother))
      (fun other hother => ?_) hrest)
    obtain ⟨hother, hlater⟩ := hboard other (List.mem_cons_of_mem _ hother)
    exact ⟨hother, hcall.step.follows hlater⟩

/-- A condition that wording corrections and releases never fail. -/
def Quiet (meets : Condition) : Prop :=
  ∀ store row revision op, (∃ message words correctedAt,
      op = TodoOperation.wordingCorrection message words correctedAt) ∨
    (∃ actor previous reason releasedAt,
      op = TodoOperation.release actor previous reason releasedAt) →
    meets store ⟨revision, op⟩ row

/-- Every operation is a sequence of calls. -/
theorem StoreOp.calls_of_apply {op : StoreOp} {world world' : TodoWorld} (hquiet : Quiet meets)
    (htracked : world.Tracked) (hmeets : op.Meets meets world) (hrecords : op.Records records)
    (hok : op.apply world = .ok world') :
    StoreCalls meets records world.store world'.store ∧ world'.Tracked := by
  -- every operation but a board read leaves the board reads as they were
  have hstore : ∀ {call : Checked TodoStore},
      (fun store => ({ world with store := store } : TodoWorld)) <$> call = .ok world' →
      (∀ store', call = .ok store' → StoreCalls meets records world.store store') →
      StoreCalls meets records world.store world'.store ∧ world'.Tracked := by
    intro call hcall hsteps
    obtain ⟨store', hstore', rfl⟩ := map_eq_ok.mp hcall
    exact ⟨hsteps store' hstore', htracked.steps (steps_of_calls (hsteps store' hstore'))⟩
  cases op with
  | readBoard =>
    cases hok
    refine ⟨.refl, htracked.keyed, fun read hread => ?_⟩
    rw [List.mem_append] at hread
    obtain hread | hread := hread
    · exact htracked.board read hread
    · obtain ⟨hmem, hopen⟩ := List.mem_filter.mp hread
      obtain ⟨problem, hget⟩ := Dict.mem_values.mp hmem
      exact ⟨by simpa using hopen, read, htracked.keyed problem read hget ▸ hget, .inl rfl⟩
  | addRequest =>
    refine hstore hok fun store' hadd => .single ?_
    simp only [TodoStore.addRequest, do_eq_ok] at hadd
    obtain ⟨_, -, _, hfresh, rfl⟩ := hadd
    refine .request (.inl ⟨rfl, fun old hold => ?_⟩)
    exact absurd (Dict.mem_of_get? hold) hfresh
  | recordDirective =>
    refine hstore hok fun store' hrecord => .single ?_
    simp only [TodoStore.recordDirective, TodoStore.request, do_eq_ok] at hrecord
    obtain ⟨asked, hasked, _, hopen, rfl⟩ := hrecord
    refine .request (.inl ⟨hopen, fun old hold => ?_⟩)
    rw [hasked] at hold
    cases hold
    exact hopen
  | completeRequest =>
    refine hstore hok fun store' hcomplete => .single ?_
    simp only [TodoStore.completeRequest, do_eq_ok] at hcomplete
    obtain ⟨asked, -, _, -, _, hserving, _, -, rfl⟩ := hcomplete
    exact .request (.inr hserving)
  | create => exact hstore hok fun store' hcreate => .single (.create hcreate)
  | applyTogether =>
    exact hstore hok fun store' hbatch => calls_of_batch htracked.keyed hmeets hbatch
  | correct cut reads unit =>
    exact hstore hok fun store' hcorrect => calls_of_captured cut reads
      (fun written row mid hwrite => ⟨_, hquiet _ _ _ _ (.inl ⟨_, _, _, rfl⟩), hwrite⟩)
      (fun row hrow => TodoStore.mem_heldIn htracked.keyed hrow)
      (TodoStore.heldIn_nodup htracked.keyed unit) hcorrect
  | fire cut reads unit =>
    refine hstore hok fun store' hfire => ?_
    simp only [TodoStore.fire, do_eq_ok] at hfire
    obtain ⟨_, -, hfire⟩ := hfire
    refine calls_of_captured cut reads (fun written row mid hrelease => ?_)
      (fun row hrow => TodoStore.mem_heldIn htracked.keyed hrow)
      (TodoStore.heldIn_nodup htracked.keyed unit) hfire
    simp only [bind_eq_ok] at hrelease
    obtain ⟨held, -, hwrite⟩ := hrelease
    exact ⟨_, hquiet _ _ _ _ (.inr ⟨_, _, _, _, rfl⟩), hwrite⟩
  | recordMerges =>
    simp only [StoreOp.apply, do_eq_ok] at hok
    obtain ⟨_, hboard, hok⟩ := hok
    exact hstore hok fun store' hmerges => calls_of_merges hrecords
      (fun merge hmerge => htracked.board _ (hboard merge hmerge)) hmerges

/-- A run is a sequence of calls. -/
theorem calls_of_run (hquiet : Quiet meets) (ops : List StoreOp) {world : TodoWorld}
    (htracked : world.Tracked) (halong : Along (StoreOp.Meets meets) StoreOp.apply ops world) :
    StoreCalls meets (fun _ => True) world.store (run StoreOp.apply ops world).store ∧
      (run StoreOp.apply ops world).Tracked := by
  induction ops generalizing world with
  | nil => exact ⟨.refl, htracked⟩
  | cons op ops ih =>
    rw [run_cons]
    obtain ⟨hmeets, hrest⟩ := halong
    obtain hok | hkeep := commit_cases (StoreOp.apply op) world
    · have hrecords : op.Records fun _ => True := by
        cases op <;> simp [StoreOp.Records]
      obtain ⟨hcalls, hnext⟩ := StoreOp.calls_of_apply hquiet htracked hmeets hrecords hok
      obtain ⟨hlater, hend⟩ := ih hnext hrest
      exact ⟨hcalls.trans hlater, hend⟩
    · rw [hkeep] at hrest ⊢
      exact ih htracked hrest

theorem steps_of_run (hquiet : Quiet meets) (ops : List StoreOp) {world : TodoWorld}
    (htracked : world.Tracked) (halong : Along (StoreOp.Meets meets) StoreOp.apply ops world) :
    StoreSteps meets world.store (run StoreOp.apply ops world).store :=
  steps_of_calls (calls_of_run hquiet ops htracked halong).1

theorem along_true (ops : List StoreOp) (world : TodoWorld) :
    Along (StoreOp.Meets fun _ _ _ => True) StoreOp.apply ops world := by
  have hbatch : ∀ (cut : RegistrySnapshot) (commands : List ProblemCommand) (store : TodoStore),
      BatchMeets (fun _ _ _ => True) cut commands store := by
    intro cut commands
    induction commands with
    | nil => exact fun _ => trivial
    | cons command rest ih => exact fun _ => ⟨fun _ _ => trivial, fun _ _ => ih _⟩
  induction ops generalizing world with
  | nil => trivial
  | cons op ops ih =>
    refine ⟨?_, ih _⟩
    cases op with
    | applyTogether cut commands => exact hbatch cut commands _
    | _ => trivial

/-- What a keyed store keeps under every elementary change, it keeps along several. -/
theorem steps_keep {P : TodoStore → Prop}
    (hkeep : ∀ {store store'}, StoreStep meets store store' → store.Keyed → P store → P store')
    (hsteps : StoreSteps meets store store') (hkeyed : store.Keyed) (hstart : P store) :
    P store' := by
  have hboth : store'.Keyed ∧ P store' := by
    induction hsteps with
    | refl => exact ⟨hkeyed, hstart⟩
    | tail _ hstep ih => exact ⟨hstep.keyed ih.1, hkeep hstep ih.1 ih.2⟩
  exact hboth.2

theorem tracked_of_run (ops : List StoreOp) : (run StoreOp.apply ops TodoWorld.empty).Tracked :=
  (calls_of_run (fun _ _ _ _ _ => trivial) ops TodoWorld.tracked_empty
    (along_true ops TodoWorld.empty)).2

/-- What every elementary change keeps holds after a run from the empty store. -/
theorem run_store_invariant (Inv : TodoStore → Prop) (hempty : Inv TodoStore.empty)
    (hstep : ∀ store store', StoreStep meets store store' → Inv store → Inv store')
    (hquiet : Quiet meets) (ops : List StoreOp)
    (halong : Along (StoreOp.Meets meets) StoreOp.apply ops TodoWorld.empty) :
    Inv (run StoreOp.apply ops TodoWorld.empty).store :=
  steps_keep (fun hnext _ => hstep _ _ hnext)
    (steps_of_run hquiet ops TodoWorld.tracked_empty halong) TodoWorld.tracked_empty.keyed hempty

end Runs

end AgentComms.Todos
