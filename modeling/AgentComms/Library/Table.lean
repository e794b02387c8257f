import AgentComms.Library.Dict

/-!
# Guarded tables

A table of rows under their primary key, as an SQL schema with triggers keeps
it. A row type declares its key, the constraints of one row and the changes of
a row its triggers admit; a table accepts new rows that satisfy the constraints
and admitted changes of stored ones, and never deletes.

`Table.Evolves` says what any sequence of such statements does to a table: every
stored row keeps its key and moves along admitted changes, and what lies outside
the statements' reach stays as it was.
-/

namespace AgentComms.Library

open Relation

/-- What a table declares for its rows. A row that declares no change is never changed. -/
class Record (ρ : Type) (κ : outParam Type) where
  key : ρ → κ
  Valid : ρ → Prop
  Admits : ρ → ρ → Prop := fun _ _ => False
  key_of_admits : ∀ {old new : ρ}, Admits old new → key new = key old := by
    intro old new hadmits
    first | exact hadmits.1 | exact hadmits.elim
  decidableValid : DecidablePred Valid := by exact fun _ => inferInstance
  decidableAdmits : DecidableRel Admits := by exact fun _ _ => inferInstance

instance {ρ κ : Type} [Record ρ κ] (row : ρ) : Decidable (Record.Valid row) :=
  Record.decidableValid row

instance {ρ κ : Type} [Record ρ κ] (old new : ρ) : Decidable (Record.Admits old new) :=
  Record.decidableAdmits old new

open Record (key)

/-- The rows of one table, each stored under its own key. -/
structure Table (ρ : Type) {κ : Type} [DecidableEq κ] [Record ρ κ] where
  rows : Dict κ ρ
  keyed : ∀ k row, rows.get? k = some row → key row = k
  valid : ∀ k row, rows.get? k = some row → Record.Valid row

namespace Table

variable {ρ κ : Type} [DecidableEq κ] [Record ρ κ] {row : ρ} {k : κ} {selects : ρ → Bool}
  {edit : ρ → ρ}

def empty : Table ρ := ⟨Dict.empty, by simp, by simp⟩

instance : Inhabited (Table ρ) := ⟨empty⟩

def get? (table : Table ρ) (k : κ) : Option ρ := table.rows.get? k

def values (table : Table ρ) : List ρ := table.rows.values

variable {table : Table ρ}

theorem eq_of_key {row' : ρ} (hget : table.get? (key row) = some row)
    (hget' : table.get? (key row') = some row') (hkey : key row = key row') : row = row' :=
  Option.mem_unique hget (hkey ▸ hget')

theorem mem_values : row ∈ table.values ↔ table.get? (key row) = some row := by
  rw [values, Dict.mem_values]
  constructor
  · rintro ⟨k, hget⟩
    rwa [← table.keyed k row hget] at hget
  · intro hget
    exact ⟨_, hget⟩

theorem mem_values_of_get? (hget : table.get? k = some row) : row ∈ table.values :=
  Dict.mem_values.mpr ⟨k, hget⟩

theorem values_nodup (table : Table ρ) : table.values.Nodup := by
  have hmap : (table.rows.values.map id).Nodup := by
    rw [Dict.nodup_map_values]
    intro k k' row row' hget hget' heq
    obtain rfl : row = row' := heq
    rw [← table.keyed k row hget, table.keyed k' row hget']
  rwa [List.map_id] at hmap

/-! ### Statements -/

def put (table : Table ρ) (row : ρ) (hvalid : Record.Valid row) : Table ρ where
  rows := table.rows.set (key row) row
  keyed := by
    intro k stored hget
    rcases Dict.get?_set_eq_some.mp hget with ⟨hk, rfl⟩ | ⟨-, hget⟩
    · exact hk.symm
    · exact table.keyed k stored hget
  valid := by
    intro k stored hget
    rcases Dict.get?_set_eq_some.mp hget with ⟨-, rfl⟩ | ⟨-, hget⟩
    · exact hvalid
    · exact table.valid k stored hget

theorem get?_put (table : Table ρ) (row : ρ) (hvalid : Record.Valid row) (k : κ) :
    (table.put row hvalid).get? k = if k = key row then some row else table.get? k :=
  Dict.get?_set table.rows (key row) row k

/-- INSERT: refused for a stored key or a row that fails its constraints. -/
def insert? (table : Table ρ) (row : ρ) : Option (Table ρ) :=
  if hvalid : Record.Valid row then
    if (table.get? (key row)).isNone then some (table.put row hvalid) else none
  else none

/-- UPDATE of the row under `k` that the WHERE clause `selects`: no such row is no
change, and a row that fails its constraints or its triggers is refused. -/
def update? (table : Table ρ) (k : κ) (selects : ρ → Bool) (edit : ρ → ρ) : Option (Table ρ) :=
  match table.get? k with
  | none => some table
  | some old =>
    if selects old then
      if hnew : Record.Admits old (edit old) ∧ Record.Valid (edit old) then
        some (table.put (edit old) hnew.2)
      else none
    else some table

theorem insert?_eq_some (hvalid : Record.Valid row) (hfresh : table.get? (key row) = none) :
    table.insert? row = some (table.put row hvalid) := by
  rw [insert?, dif_pos hvalid, hfresh]
  rfl

theorem update?_eq_some {old : ρ} (hget : table.get? k = some old)
    (hselects : selects old = true) (hadmits : Record.Admits old (edit old))
    (hvalid : Record.Valid (edit old)) :
    table.update? k selects edit = some (table.put (edit old) hvalid) := by
  rw [update?, hget]
  exact (if_pos hselects).trans (dif_pos ⟨hadmits, hvalid⟩)

structure Inserted (table : Table ρ) (row : ρ) (table' : Table ρ) : Prop where
  valid : Record.Valid row
  fresh : table.get? (key row) = none
  get?_eq : ∀ k, table'.get? k = if k = key row then some row else table.get? k

theorem inserted_of_insert? {table table' : Table ρ} (hinsert : table.insert? row = some table')
    : Inserted table row table' := by
  unfold insert? at hinsert
  split at hinsert
  case isFalse => cases hinsert
  case isTrue hvalid =>
    split at hinsert
    case isFalse => cases hinsert
    case isTrue hfresh =>
      obtain rfl := Option.some.inj hinsert
      exact ⟨hvalid, Option.isNone_iff_eq_none.mp hfresh, get?_put table row hvalid⟩

/-- What an accepted UPDATE did: nothing, or one admitted change. -/
inductive Updated (table : Table ρ) (k : κ) (selects : ρ → Bool) (edit : ρ → ρ)
    (table' : Table ρ) : Prop
  | unmatched (hsame : table' = table)
      (hnone : ∀ row, table.get? k = some row → selects row = false)
  | changed (old : ρ) (hold : table.get? k = some old) (hselects : selects old = true)
      (hadmits : Record.Admits old (edit old)) (hvalid : Record.Valid (edit old))
      (hget : ∀ k', table'.get? k' = if k' = k then some (edit old) else table.get? k')

theorem updated_of_update? {table table' : Table ρ}
    (hupdate : table.update? k selects edit = some table') :
    Updated table k selects edit table' := by
  unfold update? at hupdate
  split at hupdate
  case h_1 hnone =>
    refine .unmatched (Option.some.inj hupdate).symm fun row hget => ?_
    rw [hnone] at hget
    cases hget
  case h_2 old hold =>
    split at hupdate
    case isFalse hselects =>
      refine .unmatched (Option.some.inj hupdate).symm fun row hget => ?_
      rw [hold, Option.some.injEq] at hget
      rw [← hget]
      exact Bool.not_eq_true _ ▸ hselects
    case isTrue hselects =>
      split at hupdate
      case isFalse => cases hupdate
      case isTrue hnew =>
        have hkey : key (edit old) = k := by
          rw [Record.key_of_admits hnew.1, table.keyed k old hold]
        refine .changed old hold hselects hnew.1 hnew.2 fun k' => ?_
        obtain rfl := Option.some.inj hupdate
        rw [get?_put, hkey]

/-! ### Evolution of a table -/

/-- Every stored row survives under its key along admitted changes; a row that is
not `owned` stays as it is; a row that is new or changed is a `written` one. -/
structure Evolves (owned written : ρ → Prop) (table table' : Table ρ) : Prop where
  kept : ∀ {k row}, table.get? k = some row →
    ∃ row', table'.get? k = some row' ∧ ReflTransGen Record.Admits row row'
  framed : ∀ {k row}, table.get? k = some row → ¬ owned row → table'.get? k = some row
  reached : ∀ {k row}, table'.get? k = some row → table.get? k = some row ∨ written row

variable {owned written : ρ → Prop} {table table' table'' : Table ρ}

theorem Evolves.refl (table : Table ρ) : Evolves owned written table table where
  kept := fun hget => ⟨_, hget, .refl⟩
  framed := fun hget _ => hget
  reached := .inl

theorem Evolves.trans (hfirst : Evolves owned written table table')
    (hsecond : Evolves owned written table' table'') : Evolves owned written table table'' where
  kept := by
    intro k row hget
    obtain ⟨row', hget', hchain⟩ := hfirst.kept hget
    obtain ⟨row'', hget'', hchain'⟩ := hsecond.kept hget'
    exact ⟨row'', hget'', hchain.trans hchain'⟩
  framed := fun hget hother => hsecond.framed (hfirst.framed hget hother) hother
  reached := by
    intro k row hget
    rcases hsecond.reached hget with hget' | hwritten
    · exact hfirst.reached hget'
    · exact .inr hwritten

/-- A key under which no row is owned or written keeps its row. -/
theorem Evolves.get?_eq (hevolves : Evolves owned written table table')
    (hout : ∀ row : ρ, key row = k → ¬ owned row ∧ ¬ written row) :
    table'.get? k = table.get? k := by
  cases hget : table.get? k with
  | some row => exact hevolves.framed hget (hout row (table.keyed k row hget)).1
  | none =>
    cases hget' : table'.get? k with
    | none => rfl
    | some row =>
      rcases hevolves.reached hget' with hold | hwritten
      · rw [hget] at hold
        cases hold
      · exact absurd hwritten (hout row (table'.keyed k row hget')).2

theorem Inserted.kept {stored : ρ} (hinserted : Inserted table row table')
    (hget : table.get? k = some stored) : table'.get? k = some stored := by
  rw [hinserted.get?_eq, if_neg, hget]
  rintro rfl
  rw [hinserted.fresh] at hget
  cases hget

theorem Inserted.get?_cases {stored : ρ} (hinserted : Inserted table row table')
    (hget : table'.get? k = some stored) :
    (k = key row ∧ stored = row) ∨ table.get? k = some stored := by
  rw [hinserted.get?_eq] at hget
  by_cases hk : k = key row
  · rw [if_pos hk, Option.some.injEq] at hget
    exact .inl ⟨hk, hget.symm⟩
  · rw [if_neg hk] at hget
    exact .inr hget

theorem Inserted.isSome_get? (hinserted : Inserted table row table') (k : κ) :
    (table'.get? k).isSome = true ↔ k = key row ∨ (table.get? k).isSome = true := by
  rw [hinserted.get?_eq]
  by_cases hk : k = key row <;> simp [hk]

theorem Inserted.evolves (hinserted : Inserted table row table') (hwritten : written row)
    : Evolves owned written table table' where
  kept := fun hget => ⟨_, hinserted.kept hget, .refl⟩
  framed := fun hget _ => hinserted.kept hget
  reached := by
    intro k stored hget
    rcases hinserted.get?_cases hget with ⟨-, rfl⟩ | hget
    · exact .inr hwritten
    · exact .inl hget

theorem Updated.evolves (hupdated : Updated table k selects edit table')
    (hreach : ∀ row, table.get? k = some row → selects row = true →
      Record.Admits row (edit row) → owned row ∧ written (edit row)) :
    Evolves owned written table table' := by
  cases hupdated with
  | unmatched hsame =>
    rw [hsame]
    exact Evolves.refl table
  | changed old hold hselects hadmits hvalid hget =>
    obtain ⟨howned, hwritten⟩ := hreach old hold hselects hadmits
    refine ⟨?_, ?_, ?_⟩
    · intro k' row hrow
      rw [hget]
      by_cases hk : k' = k
      · subst hk
        rw [hold, Option.some.injEq] at hrow
        rw [if_pos rfl]
        exact ⟨_, rfl, .single (hrow ▸ hadmits)⟩
      · rw [if_neg hk]
        exact ⟨row, hrow, .refl⟩
    · intro k' row hrow hother
      rw [hget, if_neg, hrow]
      rintro rfl
      rw [hold, Option.some.injEq] at hrow
      exact hother (hrow ▸ howned)
    · intro k' row hrow
      rw [hget] at hrow
      by_cases hk : k' = k
      · rw [if_pos hk, Option.some.injEq] at hrow
        exact .inr (hrow ▸ hwritten)
      · rw [if_neg hk] at hrow
        exact .inl hrow

/-- An update leaves the set of stored keys as it was. -/
theorem Updated.isSome_get? (hupdated : Updated table k selects edit table') (k' : κ) :
    (table'.get? k').isSome = (table.get? k').isSome := by
  cases hupdated with
  | unmatched hsame => rw [hsame]
  | changed old hold hselects hadmits hvalid hget =>
    rw [hget]
    by_cases hk : k' = k
    · rw [if_pos hk, hk, hold]
      rfl
    · rw [if_neg hk]

/-! ### Selections -/

section Select

variable {α : Type} [LinearOrder α] {column : ρ → α} {selects : ρ → Bool}

/-- The rows a WHERE clause selects, in the order of one column. -/
def selectBy (table : Table ρ) (column : ρ → α) (selects : ρ → Bool) : List ρ :=
  (table.values.filter selects).insertionSort fun row row' => column row ≤ column row'

theorem mem_selectBy :
    row ∈ table.selectBy column selects ↔ table.get? (key row) = some row ∧ selects row = true := by
  rw [selectBy, List.mem_insertionSort, List.mem_filter, mem_values]

theorem selectBy_nodup (table : Table ρ) (column : ρ → α) (selects : ρ → Bool) :
    (table.selectBy column selects).Nodup :=
  (List.perm_insertionSort _ _).nodup_iff.mpr (table.values_nodup.filter _)

/-- A selection whose order separates its rows depends only on which rows it has. -/
theorem selectBy_congr (hrows : ∀ row, selects row = true →
      (table.get? (key row) = some row ↔ table'.get? (key row) = some row))
    (hseparates : ∀ row row', row ∈ table.selectBy column selects →
      row' ∈ table.selectBy column selects → column row = column row' → row = row') :
    table'.selectBy column selects = table.selectBy column selects := by
  have hmem : ∀ row, row ∈ table'.selectBy column selects ↔
      row ∈ table.selectBy column selects := by
    intro row
    rw [mem_selectBy, mem_selectBy]
    exact and_congr_left fun hselects => (hrows row hselects).symm
  have hperm : (table'.selectBy column selects).Perm (table.selectBy column selects) :=
    (List.perm_ext_iff_of_nodup (selectBy_nodup _ _ _) (selectBy_nodup _ _ _)).mpr hmem
  refine hperm.eq_of_pairwise ?_ (List.pairwise_insertionSort _ _)
    (List.pairwise_insertionSort _ _)
  intro row row' hrow hrow' hle hge
  exact hseparates row row' ((hmem row).mp hrow) hrow' (le_antisymm hle hge)

/-- Searching a selection for the row of one key reads that key. -/
theorem find?_selectBy {matched : ρ → Bool}
    (hmatched : ∀ row : ρ, key row = k ↔ selects row = true ∧ matched row = true) :
    (table.selectBy column selects).find? matched = table.get? k := by
  cases hfind : (table.selectBy column selects).find? matched with
  | some row =>
    obtain ⟨hget, hrow⟩ := mem_selectBy.mp (List.mem_of_find?_eq_some hfind)
    rw [← (hmatched row).mpr ⟨hrow, List.find?_some hfind⟩, hget]
  | none =>
    cases hget : table.get? k with
    | none => rfl
    | some row =>
      have hkey := table.keyed k row hget
      obtain ⟨hselects, hrow⟩ := (hmatched row).mp hkey
      exact absurd hrow (List.find?_eq_none.mp hfind row (mem_selectBy.mpr ⟨hkey ▸ hget, hselects⟩))

/-- A column that separates the keys of a selection separates its rows. -/
theorem nodup_map_selectBy {β : Type} {f : ρ → β}
    (hkey : ∀ row row', selects row = true → selects row' = true → f row = f row' →
      key row = key row') : ((table.selectBy column selects).map f).Nodup := by
  refine (selectBy_nodup table column selects).map_on fun row hrow row' hrow' hf => ?_
  obtain ⟨hget, hselects⟩ := mem_selectBy.mp hrow
  obtain ⟨hget', hselects'⟩ := mem_selectBy.mp hrow'
  exact eq_of_key hget hget' (hkey row row' hselects hselects' hf)

/-- A selection of rows that are neither owned nor written stays as it was. -/
theorem Evolves.selectBy_eq (hevolves : Evolves owned written table table')
    (hout : ∀ row, selects row = true → ¬ owned row ∧ ¬ written row)
    (hkey : ∀ row row', selects row = true → selects row' = true → column row = column row' →
      key row = key row') :
    table'.selectBy column selects = table.selectBy column selects := by
  refine selectBy_congr ?_ ?_
  · intro row hselects
    obtain ⟨howned, hwritten⟩ := hout row hselects
    exact ⟨fun hget => hevolves.framed hget howned,
      fun hget => (hevolves.reached hget).resolve_right hwritten⟩
  · intro row row' hrow hrow' hcolumn
    exact List.inj_on_of_nodup_map (nodup_map_selectBy hkey) hrow hrow' hcolumn

end Select

end Table

end AgentComms.Library
