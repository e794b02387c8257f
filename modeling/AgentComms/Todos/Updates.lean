import AgentComms.Todos.Runs

/-!
# Todo writes lose no update

Every stored row is recorded with the row it was computed from and the row it replaced.
In every run the writes to one problem form a chain: each replaces exactly what the one
before it stored, was computed from that row, and raises its revision by one.
-/

namespace AgentComms.Todos

open Library
open Registry (RegistrySnapshot)

def lastStored (writes : List Write) (problem : ProblemId) : Option Todo :=
  (writes.filter (·.after.id = problem)).getLast?.map Write.after

abbrev Calls := StoreCalls (fun _ _ _ => True) fun _ => True

/-- The call that stored a row, on the way to the last store, computed it from this one in the
store that it found, which had the earlier writes. -/
def Origin.Computes (last : TodoStore) (earlier : List Write) (row result : Todo) : Origin → Prop
  | .creation => False
  | .command cut reads call => ∃ store next, Calls .empty store ∧ store.writes = earlier ∧
      call.apply store reads row = .ok result ∧ call.write cut reads row store = .ok next ∧
      Calls next last
  | .merge observed => row.closedByMerge observed = .ok result

/-- A write after some earlier ones: it creates a row, stores the stored row again, or
replaces the stored row by the next revision computed from it. -/
inductive Write.Follows (last : TodoStore) (earlier : List Write) : Write → Prop
  | created {row : Todo} (hfresh : lastStored earlier row.id = none) (hfirst : row.revision = 1) :
      Follows last earlier ⟨.creation, none, none, row⟩
  | repeated {origin : Origin} {row : Todo} (hstored : lastStored earlier row.id = some row) :
      Follows last earlier ⟨origin, some row, some row, row⟩
  | replaced {origin : Origin} {row result : Todo} (hid : result.id = row.id)
      (hstored : lastStored earlier row.id = some row)
      (hrevision : result.revision = row.revision + 1)
      (hcomputes : origin.Computes last earlier row result) :
      Follows last earlier ⟨origin, some row, some row, result⟩

def Chained (last : TodoStore) (writes : List Write) : Prop :=
  ∀ earlier write later, writes = earlier ++ write :: later → write.Follows last earlier

variable {store store' last : TodoStore}

/-- More calls leave a chain. -/
theorem Chained.later {writes : List Write} (hchained : Chained store writes)
    (hcalls : Calls store store') : Chained store' writes := by
  intro earlier write later hsplit
  cases hchained earlier write later hsplit with
  | created hfresh hfirst => exact .created hfresh hfirst
  | repeated hstored => exact .repeated hstored
  | @replaced origin _ _ hid hstored hrevision hcomputes =>
    refine .replaced hid hstored hrevision ?_
    cases origin with
    | creation => exact hcomputes
    | command =>
      obtain ⟨found, next, hfound, hearlier, happly, hwrite, hnext⟩ := hcomputes
      exact ⟨found, next, hfound, hearlier, happly, hwrite, hnext.trans hcalls⟩
    | merge => exact hcomputes

theorem Chained.concat {writes : List Write} {write : Write} (hchained : Chained last writes)
    (hfollows : write.Follows last writes) : Chained last (writes ++ [write]) := by
  intro earlier other later hsplit
  obtain rfl | ⟨last, hlast⟩ := later.eq_nil_or_concat
  · obtain ⟨rfl, hother⟩ := List.append_inj' hsplit rfl
    cases hother
    exact hfollows
  · obtain ⟨rest, rfl⟩ := hlast
    have hparts : writes ++ [write] = (earlier ++ other :: last) ++ [rest] := by
      simpa using hsplit
    exact hchained earlier other last (List.append_inj' hparts rfl).1

theorem lastStored_concat (writes : List Write) (write : Write) (problem : ProblemId) :
    lastStored (writes ++ [write]) problem =
      if problem = write.after.id then some write.after else lastStored writes problem := by
  by_cases hproblem : problem = write.after.id
  · simp [lastStored, List.filter_append, hproblem]
  · have hother : ¬ write.after.id = problem := fun hsame => hproblem hsame.symm
    simp [lastStored, List.filter_append, hproblem, hother]

structure TodoStore.Logged (store : TodoStore) : Prop where
  chained : Chained store store.writes
  rows : ∀ problem, store.todos.get? problem = lastStored store.writes problem

theorem TodoStore.logged_empty : TodoStore.empty.Logged :=
  ⟨fun earlier write later hsplit => by simp [empty] at hsplit, fun _ => rfl⟩

/-- Storing a row again leaves a chain with the same rows. -/
theorem chained_repeated {writes repeated : List Write} {origin : Origin} {row : Todo}
    (hall : ∀ write ∈ repeated, write = ⟨origin, some row, some row, row⟩)
    (hchained : Chained last writes) (hstored : lastStored writes row.id = some row) :
    Chained last (writes ++ repeated) ∧
      ∀ problem, lastStored (writes ++ repeated) problem = lastStored writes problem := by
  induction repeated using List.reverseRecOn with
  | nil => simpa using hchained
  | append_singleton rest write ih =>
    obtain ⟨hrest, hsame⟩ := ih fun other hother => hall other (List.mem_append_left _ hother)
    have hwrite := hall write (List.mem_append_right _ (List.mem_singleton_self write))
    subst hwrite
    rw [← List.append_assoc]
    refine ⟨hrest.concat (.repeated ((hsame row.id).trans hstored)), fun problem => ?_⟩
    rw [lastStored_concat]
    split
    next hproblem => rw [hproblem, hstored]
    · exact hsame problem

theorem TodoStore.Stored.logged {origin : Origin} {row result : Todo}
    (hstored : store.Stored origin row result store') (hlogged : store.Logged)
    (hcalls : Calls store store') (hrow : store.todos.get? row.id = some row)
    (hid : result.id = row.id) (hrevision : result.revision = row.revision + 1)
    (hcomputes : origin.Computes store' store.writes row result) : store'.Logged := by
  obtain ⟨repeated, hwrites, hall⟩ := hstored.writes
  rw [hid, hrow] at hwrites
  have hlast : lastStored store.writes row.id = some row := (hlogged.rows row.id).symm.trans hrow
  have hfirst : Chained store' (store.writes ++ [⟨origin, some row, some row, result⟩]) :=
    (hlogged.chained.later hcalls).concat (.replaced hid hlast hrevision hcomputes)
  obtain ⟨hchained, hsame⟩ := chained_repeated hall hfirst (by simp [lastStored_concat])
  rw [List.append_assoc, List.singleton_append, ← hwrites] at hchained hsame
  refine ⟨hchained, fun problem => ?_⟩
  rw [hsame, lastStored_concat, hstored.rows]
  split
  · rfl
  · exact hlogged.rows problem

theorem logged_of_calls (hcalls : Calls .empty store) : store.Logged := by
  induction hcalls with
  | refl => exact TodoStore.logged_empty
  | @tail store store' hcalls hcall hlogged =>
    have hsingle : Calls store store' := .single hcall
    have hlater : Chained store' store.writes := hlogged.chained.later hsingle
    cases hcall with
    | write hrow _ hok =>
      obtain ⟨hsame, -⟩ | ⟨result, happly, hstep, -, -, hstored, -⟩ := TodoCommand.write_cases hok
      · refine ⟨hsame.writes ▸ hlater, fun problem => ?_⟩
        rw [hsame.todos, hsame.writes]
        exact hlogged.rows problem
      · exact hstored.logged hlogged hsingle hrow hstep.id_eq hstep.revision_eq
          ⟨store, store', hcalls, rfl, happly, hok, .refl⟩
    | record _ _ hfollows hok =>
      obtain rfl | ⟨hrow, result, hresult, hstep, rfl⟩ := MergeResult.record_cases hfollows hok
      · exact hlogged
      · exact (TodoStore.stored_upsert (.refl _) _ _ _).logged hlogged hsingle hrow
          hstep.id_eq hstep.revision_eq hresult
    | @create _ new _ hok =>
      obtain rfl | ⟨rfl, hfresh, -⟩ := NewTodo.create_cases hok
      · exact hlogged
      have hnone : lastStored store.writes new.row.id = none :=
        (hlogged.rows new.id).symm.trans hfresh
      have hwrites : (store.upsert .creation none new.row).writes =
          store.writes ++ [⟨.creation, none, none, new.row⟩] := by
        show store.writes ++ [⟨.creation, none, store.todos.get? new.id, new.row⟩] = _
        rw [hfresh]
      refine ⟨hwrites ▸ hlater.concat (.created hnone rfl), fun problem => ?_⟩
      rw [hwrites, lastStored_concat, ← hlogged.rows]
      exact Dict.get?_set ..
    | request => exact ⟨hlater, hlogged.rows⟩

open TodoWorld (empty)
open StoreOp (apply)

/-- A batch wrote all of its commands in order, each on the rows the earlier ones left, and
what each computed is the stored row. -/
inductive Wrote (cut : RegistrySnapshot) : List ProblemCommand → TodoStore → TodoStore → Prop
  | nil {store : TodoStore} : Wrote cut [] store store
  | cons {command : ProblemCommand} {rest : List ProblemCommand} {store mid store' : TodoStore}
      {row result : Todo} (hrow : store.todos.get? command.problem = some row)
      (happly : command.command.apply store command.reads row = .ok result)
      (hwrite : command.write cut store = .ok mid)
      (hresult : mid.todos.get? command.problem = some result) (hrest : Wrote cut rest mid store') :
      Wrote cut (command :: rest) store store'

theorem TodoCommand.get?_of_write {command : TodoCommand} {cut : RegistrySnapshot} {reads : Reads}
    {row : Todo} (hrow : store.todos.get? row.id = some row)
    (hok : command.write cut reads row store = .ok store') :
    ∃ result, command.apply store reads row = .ok result ∧
      store'.todos.get? row.id = some result := by
  obtain ⟨hsame, happly⟩ | ⟨result, happly, hstep, -, -, hstored, -⟩ := write_cases hok
  · exact ⟨row, happly, hsame.todos ▸ hrow⟩
  · exact ⟨result, happly, by rw [hstored.rows, if_pos hstep.id_eq.symm]⟩

theorem wrote_of_foldlM {cut : RegistrySnapshot} {commands : List ProblemCommand}
    (hkeyed : store.Keyed)
    (hok : commands.foldlM (fun store command => command.write cut store) store = .ok store') :
    Wrote cut commands store store' := by
  induction commands generalizing store with
  | nil =>
    cases hok
    exact .nil
  | cons command rest ih =>
    rw [List.foldlM_cons, bind_eq_ok] at hok
    obtain ⟨mid, hmid, hrest⟩ := hok
    have hwrite := hmid
    simp only [ProblemCommand.write, TodoStore.current, do_eq_ok] at hwrite
    obtain ⟨row, hrow, hwrite⟩ := hwrite
    obtain hid := hkeyed _ row hrow
    have hcall : StoreCall (fun _ _ _ => True) (fun _ => True) store mid :=
      .write (hid ▸ hrow) trivial hwrite
    obtain ⟨result, happly, hresult⟩ := TodoCommand.get?_of_write (hid ▸ hrow) hwrite
    exact .cons hrow happly hmid (hid ▸ hresult) (ih (hcall.step.keyed hkeyed) hrest)

/-- In every run, each write creates a row, repeats the stored one, or replaces exactly the
row it was computed from by the next revision; the rows are the last writes; and a batch
writes all of its commands in order or leaves everything as it was. -/
theorem todo_writes_lose_no_update (ops : List StoreOp) :
    Chained (run apply ops empty).store (run apply ops empty).store.writes ∧
      (∀ problem, (run apply ops empty).store.todos.get? problem =
        lastStored (run apply ops empty).store.writes problem) ∧
      ∀ cut commands,
        run apply (ops ++ [.applyTogether cut commands]) empty =
            run apply ops empty ∨
          ∃ store', Wrote cut commands (run apply ops empty).store store' ∧
            run apply (ops ++ [.applyTogether cut commands]) empty =
              { run apply ops empty with store := store' } := by
  obtain ⟨hcalls, htracked⟩ := calls_of_run (fun _ _ _ _ _ => trivial) ops
    TodoWorld.tracked_empty (along_true ops _)
  obtain ⟨hchained, hrows⟩ := logged_of_calls hcalls
  refine ⟨hchained, hrows, fun cut commands => ?_⟩
  rw [run_append, run_cons, run_nil]
  obtain hok | hkeep := commit_cases (apply (.applyTogether cut commands))
    (run apply ops empty)
  · obtain ⟨store', hbatch, hworld⟩ := map_eq_ok.mp hok
    exact .inr ⟨store', wrote_of_foldlM htracked.keyed hbatch, hworld.symm⟩
  · exact .inl hkeep

end AgentComms.Todos
