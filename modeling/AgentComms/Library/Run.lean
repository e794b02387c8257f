import Mathlib

/-!
# Fallible operations and committed runs

An operation is a function into `Except`: it either returns the next state or
refuses. A run commits each operation in turn, and a refused operation leaves
the state unchanged. `bind_eq_ok` takes a computation apart one call at a time
and `require` is a guard; `foldlM_invariant` carries an invariant through a loop
and `run_invariant` through a run.
-/

namespace AgentComms.Library

variable {ε : Type u} {σ α β : Type v} {x : Except ε α} {f : α → Except ε β} {items : List α}
  {s : σ} {op : α → σ → Except ε σ}

/-- A computation succeeds exactly when its first call and its rest do. -/
@[simp] theorem bind_eq_ok {b : β} : (x >>= f) = .ok b ↔ ∃ a, x = .ok a ∧ f a = .ok b := by
  cases x with
  | error | ok => simp [bind, Except.bind]

theorem map_eq_ok {f : α → β} {b : β} : (f <$> x) = .ok b ↔ ∃ a, x = .ok a ∧ f a = b := by
  cases x with
  | error | ok => simp [Functor.map, Except.map]

@[simp] theorem pure_eq_ok {a b : α} : (pure a : Except ε α) = .ok b ↔ a = b := by
  simp [pure, Except.pure]

theorem toOption_eq_some {a : α} : x.toOption = some a ↔ x = .ok a := by
  cases x <;> simp [Except.toOption]

theorem eq_error_of_map {f : α → β} {e : ε} (hmap : x.map f = .error e) : x = .error e := by
  cases x with
  | error => exact congrArg Except.error (Except.error.inj hmap)
  | ok => cases hmap

/-- A call that can be evaluated gives a result that passes a test. -/
theorem exists_ok_of_decide {p : α → Prop} [DecidablePred p]
    (hrun : x.map (fun a => decide (p a)) = .ok true) : ∃ a, x = .ok a ∧ p a := by
  cases x with
  | error => cases hrun
  | ok a => exact ⟨a, rfl, of_decide_eq_true (Except.ok.inj hrun)⟩

def require (p : Prop) [Decidable p] (e : ε) : Except ε Unit :=
  if p then .ok () else .error e

@[simp] theorem require_eq_ok {p : Prop} [Decidable p] {e : ε} {u : Unit} :
    require p e = .ok u ↔ p := by
  by_cases hp : p <;> simp [require, hp]

def orRefuse (x : Option α) (e : ε) : Except ε α :=
  match x with
  | some a => .ok a
  | none => .error e

@[simp] theorem orRefuse_eq_ok {x : Option α} {e : ε} {a : α} :
    orRefuse x e = .ok a ↔ x = some a := by
  cases x <;> simp [orRefuse]

/-- The rules that take a successful `do` block apart, as one set for `simp only`. -/
theorem do_eq_ok :
    (∀ {ε α β : Type u} {x : Except ε α} {f : α → Except ε β} {b : β},
      (x >>= f) = .ok b ↔ ∃ a, x = .ok a ∧ f a = .ok b) ∧
    (∀ {ε α : Type u} {a b : α}, (pure a : Except ε α) = .ok b ↔ a = b) ∧
    (∀ {ε : Type u} {p : Prop} [Decidable p] {e : ε} {u : Unit}, require p e = .ok u ↔ p) ∧
    (∀ {ε α : Type u} {x : Option α} {e : ε} {a : α}, orRefuse x e = .ok a ↔ x = some a) ∧
    ∀ {α β : Type u} {a c : α} {b d : β}, (a, b) = (c, d) ↔ a = c ∧ b = d :=
  ⟨bind_eq_ok, pure_eq_ok, require_eq_ok, orRefuse_eq_ok, Prod.mk_inj⟩

/-- A loop of checks passes exactly when every check does. -/
theorem forM_eq_ok {f : α → Except ε Unit} {u : Unit} :
    items.forM f = .ok u ↔ ∀ item ∈ items, f item = .ok () := by
  induction items with
  | nil => simp [pure, Except.pure]
  | cons item items ih =>
    rw [List.forall_mem_cons]
    show (f item >>= fun _ => items.forM f) = .ok u ↔ _
    rw [bind_eq_ok]
    constructor
    · rintro ⟨_, hitem, hrest⟩
      exact ⟨hitem, ih.mp hrest⟩
    · rintro ⟨hitem, hrest⟩
      exact ⟨(), hitem, ih.mpr hrest⟩

/-- Reading one value for each item succeeds exactly when every read does. -/
theorem mapM_eq_ok {values : List β} :
    items.mapM f = .ok values ↔ List.Forall₂ (fun item value => f item = .ok value) items values := by
  induction items generalizing values with
  | nil =>
    rw [List.mapM_nil, pure_eq_ok, List.forall₂_nil_left_iff]
    exact eq_comm
  | cons item items ih =>
    simp only [List.mapM_cons, bind_eq_ok, pure_eq_ok]
    constructor
    · rintro ⟨value, hitem, rest, hrest, rfl⟩
      exact .cons hitem (ih.mp hrest)
    · intro hall
      cases hall with
      | cons hitem hrest => exact ⟨_, hitem, _, ih.mpr hrest, rfl⟩

/-- The results of a fallible loop are those of its items, and each item has one. -/
theorem mem_of_mapM {values : List β} (hok : items.mapM f = .ok values) :
    (∀ value ∈ values, ∃ item ∈ items, f item = .ok value) ∧
      ∀ item ∈ items, ∃ value ∈ values, f item = .ok value := by
  have hpairs := mapM_eq_ok.mp hok
  clear hok
  induction hpairs with
  | nil => exact ⟨nofun, nofun⟩
  | cons hfirst hrest ih =>
    simp only [List.mem_cons, forall_eq_or_imp, exists_eq_or_imp]
    exact ⟨⟨.inl hfirst, fun value hmem => .inr (ih.1 value hmem)⟩,
      ⟨.inl hfirst, fun item hmem => .inr (ih.2 item hmem)⟩⟩

theorem mapError_eq_ok {ε' : Type*} {f : ε → ε'} {a : α} : x.mapError f = .ok a ↔ x = .ok a := by
  cases x <;> simp [Except.mapError]

theorem bind_eq_error {e : ε} :
    (x >>= f) = .error e ↔ x = .error e ∨ ∃ a, x = .ok a ∧ f a = .error e := by
  cases x <;> simp [bind, Except.bind]

theorem require_eq_error {p : Prop} [Decidable p] {e e' : ε} :
    require p e = .error e' ↔ ¬ p ∧ e = e' := by
  unfold require
  split <;> simp [*]

/-- A loop is refused by one of its rounds. -/
theorem foldlM_eq_error {f : σ → α → Except ε σ} {e : ε} (hrun : items.foldlM f s = .error e) :
    ∃ item ∈ items, ∃ t, f t item = .error e := by
  induction items generalizing s with
  | nil => cases hrun
  | cons item items ih =>
    rw [List.foldlM_cons, bind_eq_error] at hrun
    rcases hrun with hround | ⟨mid, -, hrest⟩
    · exact ⟨item, List.mem_cons_self, s, hround⟩
    · obtain ⟨other, hother, hround⟩ := ih hrest
      exact ⟨other, List.mem_cons_of_mem _ hother, hround⟩

theorem forM_eq_error {f : α → Except ε Unit} {e : ε} (hrun : items.forM f = .error e) :
    ∃ item ∈ items, f item = .error e := by
  induction items with
  | nil => cases hrun
  | cons item items ih =>
    rcases bind_eq_error.mp (show (f item >>= fun _ => items.forM f) = .error e from hrun) with
      hround | ⟨-, -, hrest⟩
    · exact ⟨item, List.mem_cons_self, hround⟩
    · obtain ⟨other, hother, hround⟩ := ih hrest
      exact ⟨other, List.mem_cons_of_mem _ hother, hround⟩

/-- What every round of a loop preserves holds after the loop. -/
theorem foldlM_invariant (Inv : σ → Prop) {f : σ → α → Except ε σ}
    (hstep : ∀ item ∈ items, ∀ s t, Inv s → f s item = .ok t → Inv t) {t : σ} (hs : Inv s)
    (hrun : items.foldlM f s = .ok t) : Inv t := by
  induction items generalizing s with
  | nil =>
    cases hrun
    exact hs
  | cons item items ih =>
    rw [List.foldlM_cons, bind_eq_ok] at hrun
    obtain ⟨mid, hmid, hrest⟩ := hrun
    exact ih (fun other hother => hstep other (List.mem_cons_of_mem _ hother))
      (hstep item List.mem_cons_self s mid hs hmid) hrest

/-- A loop whose rounds are never refused is not refused. -/
theorem foldlM_ok {f : σ → α → Except ε σ} (items : List α)
    (hround : ∀ item ∈ items, ∀ s, ∃ t, f s item = .ok t) (s : σ) :
    ∃ t, items.foldlM f s = .ok t := by
  induction items generalizing s with
  | nil => exact ⟨s, rfl⟩
  | cons item items ih =>
    obtain ⟨mid, hmid⟩ := hround item List.mem_cons_self s
    obtain ⟨t, hrest⟩ := ih (fun other hother => hround other (List.mem_cons_of_mem _ hother)) mid
    exact ⟨t, by rw [List.foldlM_cons, bind_eq_ok]; exact ⟨mid, hmid, hrest⟩⟩

/-- What the round of an item establishes and later rounds keep holds after the loop. -/
theorem foldlM_establishes (Inv : σ → Prop) (Done : α → σ → Prop) {f : σ → α → Except ε σ}
    (hinv : ∀ item ∈ items, ∀ s t, Inv s → f s item = .ok t → Inv t)
    (hdone : ∀ item ∈ items, ∀ s t, Inv s → f s item = .ok t → Done item t)
    (hkeeps : ∀ item, ∀ other ∈ items, ∀ s t, Inv s → Done item s → f s other = .ok t →
      Done item t) {t : σ} (hs : Inv s) (hrun : items.foldlM f s = .ok t)
    : ∀ item ∈ items, Done item t := by
  induction items generalizing s with
  | nil => exact fun _ hitem => absurd hitem List.not_mem_nil
  | cons first items ih =>
    rw [List.foldlM_cons, bind_eq_ok] at hrun
    obtain ⟨mid, hmid, hrest⟩ := hrun
    have hmem : ∀ item ∈ items, item ∈ first :: items := fun _ => List.mem_cons_of_mem _
    have hinv' := hinv first List.mem_cons_self s mid hs hmid
    intro item hitem
    rcases List.mem_cons.mp hitem with rfl | hitem
    · -- the rest of the loop keeps what this round established
      refine (foldlM_invariant (fun later => Inv later ∧ Done item later) ?_
        ⟨hinv', hdone item List.mem_cons_self s mid hs hmid⟩ hrest).2
      rintro other hother before after ⟨hbefore, hpost⟩ hstep
      exact ⟨hinv other (hmem other hother) before after hbefore hstep,
        hkeeps item other (hmem other hother) before after hbefore hpost hstep⟩
    · exact ih (fun other hother => hinv other (hmem other hother))
        (fun other hother => hdone other (hmem other hother))
        (fun one other hother => hkeeps one other (hmem other hother)) hinv' hrest item hitem

/-- A refused operation is not committed: the state stays as it was. -/
def commit (op : σ → Except ε σ) (s : σ) : σ :=
  match op s with
  | .ok s' => s'
  | .error _ => s

theorem commit_of_ok {op : σ → Except ε σ} {t : σ} (hop : op s = .ok t) : commit op s = t := by
  simp [commit, hop]

theorem commit_cases (op : σ → Except ε σ) (s : σ) :
    op s = .ok (commit op s) ∨ commit op s = s := by
  unfold commit
  cases hop : op s with
  | ok => exact Or.inl rfl
  | error => exact Or.inr rfl

def run (op : α → σ → Except ε σ) (ops : List α) (s : σ) : σ :=
  ops.foldl (fun state a => commit (op a) state) s

@[simp] theorem run_nil (op : α → σ → Except ε σ) (s : σ) : run op [] s = s := rfl

@[simp] theorem run_cons (op : α → σ → Except ε σ) (a : α) (ops : List α) (s : σ) :
    run op (a :: ops) s = run op ops (commit (op a) s) := rfl

theorem run_append (op : α → σ → Except ε σ) (first rest : List α) (s : σ) :
    run op (first ++ rest) s = run op rest (run op first s) := by
  simp [run, List.foldl_append]

/-- What every committed operation preserves holds after a run. -/
theorem run_invariant (Inv : σ → Prop) (hstep : ∀ a s t, Inv s → op a s = .ok t → Inv t)
    (ops : List α) (hs : Inv s) : Inv (run op ops s) := by
  induction ops generalizing s with
  | nil => exact hs
  | cons a ops ih =>
    rw [run_cons]
    refine ih ?_
    rcases commit_cases (op a) s with hok | hkeep
    · exact hstep a s _ hs hok
    · rwa [hkeep]

/-- Every operation of a run meets a condition in the state it starts from. -/
def Along (meets : σ → α → Prop) (op : α → σ → Except ε σ) : List α → σ → Prop
  | [], _ => True
  | a :: ops, s => meets s a ∧ Along meets op ops (commit (op a) s)

instance Along.decidable (meets : σ → α → Prop) [∀ s a, Decidable (meets s a)]
    (op : α → σ → Except ε σ) : (ops : List α) → (s : σ) → Decidable (Along meets op ops s)
  | [], _ => isTrue trivial
  | a :: ops, s =>
    have := Along.decidable meets op ops (commit (op a) s)
    inferInstanceAs (Decidable (meets s a ∧ Along meets op ops (commit (op a) s)))

theorem along_append {meets : σ → α → Prop} {first rest : List α}
    : Along meets op (first ++ rest) s ↔
      Along meets op first s ∧ Along meets op rest (run op first s) := by
  induction first generalizing s with
  | nil => simp [Along]
  | cons a first ih => simp [Along, ih, and_assoc]

/-- What every committed operation that meets the condition preserves holds after a run
that meets it throughout. -/
theorem run_invariant_along (Inv : σ → Prop) {meets : σ → α → Prop}
    (hstep : ∀ a s t, Inv s → meets s a → op a s = .ok t → Inv t) (ops : List α) (hs : Inv s)
    (halong : Along meets op ops s) : Inv (run op ops s) := by
  induction ops generalizing s with
  | nil => exact hs
  | cons a ops ih =>
    rw [run_cons]
    refine ih ?_ halong.2
    rcases commit_cases (op a) s with hok | hkeep
    · exact hstep a s _ hs halong.1 hok
    · rwa [hkeep]

end AgentComms.Library
