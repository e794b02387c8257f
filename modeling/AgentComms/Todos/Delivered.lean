import AgentComms.Todos.Final

/-!
# Deliveries on record

An order that records a delivery is copied into another member of the family by several
commands. A member without a delivery keeps the order's id, and the archive keeps only
declarations whose id leaves the row, so a withdrawal, a drop and a recorded merge lose the
delivery, and so does another observation of the same work. Everything else keeps it on the
row or archives it.
-/

namespace AgentComms.Todos

open Library
open Registry (RegistrySnapshot RegistryDocument)

/-- The delivery an order records; a fold keeps its original. -/
def ProblemOrder.delivery? : ProblemOrder → Option OrderDelivery
  | .delivered _ delivery | .reported _ delivery | .installed _ delivery _ => some delivery
  | .folded original _ _ _ => original.delivery?
  | _ => none

def ProblemOrder.declaredIds (order : ProblemOrder) : List OrderId :=
  order.declarations.filterMap fun order => order.declared?.map Declaration.id

namespace TodoStore

def archived (store : TodoStore) (problem : ProblemId) : List ProblemOrder :=
  (store.events problem).filterMap fun event => match event with
    | .order order => some order
    | _ => none

def archivedIds (store : TodoStore) (problem : ProblemId) : List OrderId :=
  (store.archived problem).filterMap fun order => order.declared?.map Declaration.id

/-- What can be read of a problem's deliveries, from its row and from its history. -/
def deliveries (store : TodoStore) (problem : ProblemId) : List OrderDelivery :=
  ((store.todos.get? problem).bind fun row => row.order.delivery?).toList ++
    (store.archived problem).filterMap ProblemOrder.delivery?

end TodoStore

/-- On an order with a delivery: no withdrawal, no drop, no other observation of the work, and
no assignment of an order under an id that is the row's own or was archived before. -/
def KeepsDelivery (store : TodoStore) (command : TodoCommand) (row : Todo) : Prop :=
  row.order.delivery? = none ∨ match command.operation with
    | .withdraw .. | .drop .. => False
    | .deliver _ delivery _ => row.order.delivery? = some delivery
    | .assign _ _ _ sent _ => ∀ id ∈ row.order.declaredIds, id ∉ sent.order.declaredIds ∧
        id ∉ store.archivedIds row.id
    | _ => True

/-- No command of the operation loses a delivery, and no merge is recorded over one. -/
def StoreOp.KeepsDeliveries (world : TodoWorld) (op : StoreOp) : Prop :=
  op.Meets KeepsDelivery world ∧ op.Records fun merge => merge.row.order.delivery? = none

/-! ### Orders -/

namespace ProblemOrder

variable {order result : ProblemOrder} {delivery : OrderDelivery}

@[simp] theorem delivery?_withDeclared (order : ProblemOrder) (changed : Declaration) :
    (order.withDeclared changed).delivery? = order.delivery? := by
  cases order <;> rfl

@[simp] theorem delivery?_underReview (order : ProblemOrder) (review : HeadReview) :
    (order.underReview review).delivery? = order.delivery? := by
  cases order <;> rfl

@[simp] theorem delivery?_sentBack (order : ProblemOrder) (reason : String) (minted : OrderId)
    (now : Int) : (order.sentBack reason minted now).delivery? = order.delivery? := by
  cases order <;> rfl

theorem delivery?_of_claim {claim : OrderClaim} (hok : order.claim claim = .ok result) :
    result.delivery? = order.delivery? := by
  cases order <;> cases hok
  rfl

theorem delivery?_of_corrected {correction : Correction}
    (hok : order.corrected correction = .ok result) : result.delivery? = order.delivery? := by
  simp only [corrected, do_eq_ok, Prod.exists] at hok
  obtain ⟨declared, -, _, -, replaced, changed, hpart, rfl⟩ := hok
  rw [delivery?_withDeclared]
  cases hkind : correction.part with
  | mergedLink =>
    simp only [hkind, replacePart, do_eq_ok] at hpart
    obtain ⟨sha, hsha, unlinked, -, _, -, rfl, -⟩ := hpart
    -- only a merged order takes its merge back, and it has no delivery
    cases order <;> first | rfl | cases hsha
  | _ =>
    simp only [hkind, replacePart, do_eq_ok] at hpart
    grind

theorem delivery?_of_install {works artifact : String}
    (hok : order.install works artifact = .ok result) : result.delivery? = order.delivery? := by
  cases order <;> simp only [install, do_eq_ok, reduceCtorEq] at hok <;> grind [delivery?]

theorem delivery?_of_deliver (hok : order.deliver delivery = .ok result) :
    result.delivery? = some delivery := by
  cases order <;> simp only [deliver, OrderDelivery.reproved, do_eq_ok] at hok <;>
    grind [delivery?]

/-- An order with a delivery is archived as one declaration. -/
theorem declarations_of_delivery (hdelivery : order.delivery? = some delivery) :
    ∃ kept declared, order.declarations = [kept] ∧ kept.declared? = some declared ∧
      kept.delivery? = some delivery := by
  induction order with
  | folded original into why finding ih => exact ih hdelivery
  | delivered | reported | installed => exact ⟨_, _, rfl, rfl, hdelivery⟩
  | _ => cases hdelivery

end ProblemOrder

/-! ### Commands -/

variable {command : TodoCommand} {store store' : TodoStore} {reads : Reads} {row result : Todo}
  {cut : RegistrySnapshot} {delivery : OrderDelivery}

theorem Strike.delivery?_of_changed {strike : Strike} {actor : Actor}
    (hok : strike.changed store reads actor row = .ok result) :
    result.order.delivery? = row.order.delivery? := by
  simp only [Strike.changed, do_eq_ok] at hok
  obtain ⟨_, -, _, -, _, -, _, -, hok⟩ := hok
  split at hok
  · rw [pure_eq_ok.mp hok]
  · split at hok
    · simp only [do_eq_ok] at hok
      obtain ⟨_, -, rfl⟩ := hok
      exact ProblemOrder.delivery?_sentBack ..
    · rw [← pure_eq_ok.mp hok]

/-- A command that keeps a delivery leaves it on the row, or gives the row another order id. -/
theorem TodoCommand.delivery_of_apply (hok : command.apply store reads row = .ok result)
    (hkeeps : KeepsDelivery store command row) (hdelivery : row.order.delivery? = some delivery) :
    result.order.delivery? = some delivery ∨ ∀ id ∈ row.order.declaredIds,
      id ∉ result.order.declaredIds ∧ id ∉ store.archivedIds row.id := by
  obtain ⟨revision, op⟩ := command
  have hkeeps := hkeeps.resolve_left (by simp [hdelivery])
  cases op with
  | assign =>
    simp only [apply, assigned, do_eq_ok] at hok
    obtain ⟨_, -, hok⟩ := hok
    split at hok
    · exact .inl (pure_eq_ok.mp hok ▸ hdelivery)
    · simp only [do_eq_ok] at hok
      obtain ⟨_, -, _, -, _, -, _, -, rfl⟩ := hok
      exact .inr hkeeps
  | withdraw | drop => exact hkeeps.elim
  | deliver =>
    simp only [apply, Todo.closed, do_eq_ok] at hok
    obtain ⟨_, -, _, -, _, -, _, -, _, -, declared, -, hok⟩ := hok
    rw [hdelivery] at hkeeps
    cases hkeeps
    split at hok <;> simp only [do_eq_ok] at hok
    · obtain ⟨_, -, rfl⟩ := hok
      exact .inl rfl
    · obtain ⟨order, horder, rfl⟩ := hok
      exact .inl (ProblemOrder.delivery?_of_deliver horder)
  | link =>
    simp only [apply, do_eq_ok] at hok
    obtain ⟨_, -, _, -, _, -, order, horder, -⟩ := hok
    -- only a problem without an order takes another's
    cases hcase : row.order <;>
      simp [hcase, ProblemOrder.linked, ProblemOrder.delivery?] at horder hdelivery
  | foldSource =>
    simp only [apply, do_eq_ok] at hok
    obtain ⟨_, -, order, horder, rfl⟩ := hok
    exact .inl (ProblemOrder.fold_eq_ok horder ▸ hdelivery)
  | verdict =>
    simp only [apply, judged, do_eq_ok] at hok
    obtain ⟨_, -, _, -, _, -, _, -, _, -, judged, hjudged, rfl⟩ := hok
    refine .inl (Eq.trans ?_ hdelivery)
    unfold verdictRow at hjudged
    split at hjudged
    · exact (Strike.delivery?_of_changed hjudged :)
    · simp only [do_eq_ok] at hjudged
      obtain ⟨_, -, rfl⟩ := hjudged
      rfl
  | _ =>
    -- the order stays, or is replaced by one with the same delivery
    refine .inl (Eq.trans ?_ hdelivery)
    simp only [apply, headJudged, decided, Todo.closed, ProblemOrder.forPhase, do_eq_ok] at hok
    grind [Strike.delivery?_of_changed, ProblemOrder.delivery?_of_corrected,
      ProblemOrder.delivery?_of_claim, ProblemOrder.delivery?_of_install,
      ProblemOrder.delivery?_underReview, ProblemOrder.delivery?_withDeclared, bind_eq_ok,
      pure_eq_ok]

/-! ### The history -/

namespace TodoStore

/-- A delivery is archived when the id of its order leaves the row for the first time. -/
theorem archived_of_archive {following : ProblemOrder}
    (hdelivery : row.order.delivery? = some delivery)
    (hids : ∀ id ∈ row.order.declaredIds,
      id ∉ following.declaredIds ∧ id ∉ store.archivedIds row.id)
    (hok : store.archive row following = .ok store') :
    ∃ order, .order order ∈ store'.events row.id ∧ order.delivery? = some delivery := by
  obtain ⟨kept, declared, hdeclarations, hdeclared, hkept⟩ :=
    ProblemOrder.declarations_of_delivery hdelivery
  obtain ⟨hfollowing, harchived⟩ := hids declared.id (by
    simp [ProblemOrder.declaredIds, hdeclarations, hdeclared])
  rw [archive, hdeclarations] at hok
  simp only [List.foldlM_cons, List.foldlM_nil, do_eq_ok] at hok
  obtain ⟨_, hround, rfl⟩ := hok
  split at hround
  next hall =>
    simp only [List.filterMap_cons, hdeclared, Option.map_some, List.filterMap_nil,
      List.all_cons, List.all_nil, Bool.and_true, decide_eq_true_eq] at hall
    exact absurd hall (not_or.mpr ⟨hfollowing, harchived⟩)
  · exact ⟨kept, (told_of_append hround).2, hkept⟩

theorem events_subset (hstory : store.story <+: store'.story) (problem : ProblemId) :
    store.events problem ⊆ store'.events problem :=
  List.map_subset _ (hstory.filter _).subset

theorem mem_deliveries {problem : ProblemId} : delivery ∈ store.deliveries problem ↔
    (∃ row, store.todos.get? problem = some row ∧ row.order.delivery? = some delivery) ∨
      ∃ order, .order order ∈ store.events problem ∧ order.delivery? = some delivery := by
  simp only [deliveries, archived, List.mem_append, Option.mem_toList, Option.bind_eq_some_iff,
    List.mem_filterMap]
  constructor
  · rintro (hrow | ⟨order, ⟨event, hevent, hmatch⟩, hdelivery⟩)
    · exact .inl hrow
    · cases event <;> cases hmatch
      exact .inr ⟨order, hevent, hdelivery⟩
  · rintro (hrow | ⟨order, horder, hdelivery⟩)
    · exact .inl hrow
    · exact .inr ⟨order, ⟨_, horder, rfl⟩, hdelivery⟩

def Keeps (store store' : TodoStore) : Prop :=
  ∀ problem, store.deliveries problem ⊆ store'.deliveries problem

theorem Keeps.refl (store : TodoStore) : store.Keeps store := fun _ => List.Subset.refl _

theorem Keeps.trans {first second third : TodoStore} (hfirst : first.Keeps second)
    (hrest : second.Keeps third) : first.Keeps third :=
  fun problem => List.Subset.trans (hfirst problem) (hrest problem)

/-- A change that keeps the history keeps the deliveries if it keeps those of the rows. -/
theorem keeps_of_story (hstory : store.story <+: store'.story)
    (hrows : ∀ problem row delivery, store.todos.get? problem = some row →
      row.order.delivery? = some delivery → delivery ∈ store'.deliveries problem) :
    store.Keeps store' := by
  intro problem delivery hread
  rcases mem_deliveries.mp hread with ⟨row, hrow, hdelivery⟩ | ⟨order, horder, hdelivery⟩
  · exact hrows problem row delivery hrow hdelivery
  · exact mem_deliveries.mpr (.inr ⟨order, events_subset hstory problem horder, hdelivery⟩)

theorem keeps_of_rows (hstory : store.story <+: store'.story)
    (hrows : ∀ problem row, store.todos.get? problem = some row →
      row.order.delivery? ≠ none → store'.todos.get? problem = some row) : store.Keeps store' :=
  keeps_of_story hstory fun problem row _ hrow hdelivery =>
    mem_deliveries.mpr (.inl ⟨row, hrows problem row hrow (by simp [hdelivery]), hdelivery⟩)

end TodoStore

/-- A command loses no delivery of the row it is applied to. -/
theorem TodoCommand.keeps_of_write (hok : command.write cut reads row store = .ok store')
    (hrow : store.todos.get? row.id = some row) (hkeeps : KeepsDelivery store command row) :
    store.Keeps store' := by
  obtain ⟨htold, -⟩ | ⟨result, happly, hstep, -, -, hstored, archived, harchive, hlater⟩ :=
    write_cases hok
  · exact TodoStore.keeps_of_rows htold.story fun _ _ hget _ => htold.todos ▸ hget
  · refine TodoStore.keeps_of_story ((TodoStore.told_of_archive harchive).story.trans hlater)
      fun problem old delivery hold hdelivery => ?_
    by_cases hproblem : problem = row.id
    · subst hproblem
      obtain rfl : row = old := Option.some.inj (hrow.symm.trans hold)
      rcases delivery_of_apply happly hkeeps hdelivery with hkept | hids
      · refine TodoStore.mem_deliveries.mpr (.inl ⟨result, ?_, hkept⟩)
        rw [hstored.rows, if_pos hstep.id_eq.symm]
      · obtain ⟨order, horder, hkept⟩ := TodoStore.archived_of_archive hdelivery hids harchive
        exact TodoStore.mem_deliveries.mpr
          (.inr ⟨order, TodoStore.events_subset hlater _ horder, hkept⟩)
    · refine TodoStore.mem_deliveries.mpr (.inl ⟨old, ?_, hdelivery⟩)
      rw [hstored.rows, if_neg (hstep.id_eq ▸ hproblem), hold]

/-! ### Runs -/

theorem StoreCall.keeps (hcall : StoreCall KeepsDelivery
    (fun merge => merge.row.order.delivery? = none) store store') : store.Keeps store' := by
  cases hcall with
  | write hrow hmeets hok => exact TodoCommand.keeps_of_write hok hrow hmeets
  | record hrecords _ hfollows hok =>
    obtain rfl | ⟨hrow, result, -, hstep, rfl⟩ := MergeResult.record_cases hfollows hok
    · exact .refl _
    · refine TodoStore.keeps_of_rows List.prefix_rfl fun problem row hget hdelivery => ?_
      refine (Dict.get?_set_of_ne _ _ fun hproblem => hdelivery ?_).trans hget
      rw [hproblem, hstep.id_eq, hrow, Option.some.injEq] at hget
      rw [← hget, hrecords]
  | create hok =>
    obtain rfl | ⟨rfl, hfresh, -⟩ := NewTodo.create_cases hok
    · exact .refl _
    · refine TodoStore.keeps_of_rows List.prefix_rfl fun problem row hget _ => ?_
      refine (Dict.get?_set_of_ne _ _ fun hproblem => ?_).trans hget
      rw [hproblem, NewTodo.row, hfresh] at hget
      cases hget
  | request => exact TodoStore.keeps_of_rows List.prefix_rfl fun _ _ hget _ => hget

theorem StoreOp.keeps_of_apply {op : StoreOp} {world world' : TodoWorld} (htracked : world.Tracked)
    (hkeeps : op.KeepsDeliveries world) (hok : op.apply world = .ok world') :
    world.store.Keeps world'.store ∧ world'.Tracked := by
  have hquiet : Quiet KeepsDelivery := by
    rintro store row revision op (⟨_, _, _, rfl⟩ | ⟨_, _, _, _, rfl⟩) <;> exact .inr trivial
  obtain ⟨hcalls, hnext⟩ := StoreOp.calls_of_apply hquiet htracked hkeeps.1 hkeeps.2 hok
  refine ⟨?_, hnext⟩
  generalize world'.store = last at hcalls
  induction hcalls with
  | refl => exact .refl _
  | tail _ hcall ih => exact ih.trans hcall.keeps

/-- Every delivery that can be read after some operations can be read after any more that
keep deliveries. -/
theorem deliveries_stay_on_record (ops later : List StoreOp) (problem : ProblemId)
    (halong : Along StoreOp.KeepsDeliveries StoreOp.apply later
      (run StoreOp.apply ops TodoWorld.empty)) :
    (run StoreOp.apply ops TodoWorld.empty).store.deliveries problem ⊆
      (run StoreOp.apply (ops ++ later) TodoWorld.empty).store.deliveries problem := by
  rw [run_append]
  exact (run_invariant_along (fun world : TodoWorld => world.Tracked ∧
      (run StoreOp.apply ops TodoWorld.empty).store.Keeps world.store)
    (fun op world world' ⟨htracked, hkept⟩ hkeeps hok =>
      have hnext := StoreOp.keeps_of_apply htracked hkeeps hok
      ⟨hnext.2, hkept.trans hnext.1⟩) later ⟨tracked_of_run ops, .refl _⟩ halong).2 problem

/-! ### A withdrawal after the delivery -/

section Withdrawn

def sampleDelivery : OrderDelivery := ⟨.operation, .recorded 30, none, none⟩

def deliverOps (cut : RegistrySnapshot) : List StoreOp :=
  heldOps ++ [leadCommand cut 1 (.deliver lead sampleDelivery "order-1")]

def leadInstall (cut : RegistrySnapshot) : StoreOp :=
  leadCommand cut 2 (.install lead "It runs." "run.log")

/-- A delivered problem is withdrawn: its delivery is neither on its row nor in its history. -/
theorem withdrawn_delivery_is_gone :
    ∃ cut, RegistryDocument.empty.capture = .ok cut ∧
      (run StoreOp.apply (deliverOps cut) TodoWorld.empty).store.deliveries "P1" =
        [sampleDelivery] ∧
      (run StoreOp.apply (deliverOps cut ++ [leadWithdrawal cut 2])
        TodoWorld.empty).store.deliveries "P1" = [] := by
  exact exists_ok_of_decide (by decide +kernel)

/-- Installed instead, it keeps its delivery. -/
theorem deliveries_stay_on_record_installed :
    ∃ cut, RegistryDocument.empty.capture = .ok cut ∧ sampleDelivery ∈
      (run StoreOp.apply (deliverOps cut ++ [leadInstall cut]) TodoWorld.empty).store.deliveries
        "P1" := by
  have hrun : ∃ cut, RegistryDocument.empty.capture = .ok cut ∧
      sampleDelivery ∈ (run StoreOp.apply (deliverOps cut) TodoWorld.empty).store.deliveries "P1" :=
    exists_ok_of_decide (by decide +kernel)
  obtain ⟨cut, hcut, hdelivery⟩ := hrun
  refine ⟨cut, hcut, deliveries_stay_on_record (deliverOps cut) [leadInstall cut] "P1"
    ⟨⟨⟨fun _ _ => .inr trivial, fun _ _ => trivial⟩, trivial⟩, trivial⟩ hdelivery⟩

end Withdrawn

end AgentComms.Todos
