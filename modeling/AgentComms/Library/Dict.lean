import AgentComms.Library.Run

/-!
# Insertion-ordered dictionaries

A dictionary is a list of entries whose keys are distinct. Setting a present
key keeps its position and setting a new one appends, so the order of the
entries is the order in which the keys were first written. Every later proof
reads a dictionary through `get?`: the lemmas below say what each operation does
to it, and `mem_entries` and `mem_iff` turn membership into `get?`.
-/

namespace AgentComms.Library

/-- An insertion-ordered dictionary: entries with pairwise distinct keys. -/
structure Dict (κ ν : Type) where
  entries : List (κ × ν)
  nodup : (entries.map Prod.fst).Nodup

namespace Dict

variable {κ ν ω : Type}

def empty : Dict κ ν := ⟨[], List.nodup_nil⟩

instance : Inhabited (Dict κ ν) := ⟨empty⟩

def keys (d : Dict κ ν) : List κ := d.entries.map Prod.fst

def values (d : Dict κ ν) : List ν := d.entries.map Prod.snd

instance : Membership κ (Dict κ ν) := ⟨fun d k => k ∈ d.keys⟩

theorem mem_keys {d : Dict κ ν} {k : κ} : k ∈ d.keys ↔ k ∈ d := Iff.rfl

section Lookup

variable [DecidableEq κ] {d e : Dict κ ν} {k : κ} {decode : κ → ω → Except ε ν}

instance (d : Dict κ ν) (k : κ) : Decidable (k ∈ d) :=
  inferInstanceAs (Decidable (k ∈ d.keys))

instance [DecidableEq ν] : DecidableEq (Dict κ ν) := fun d e =>
  decidable_of_iff (d.entries = e.entries) (by cases d; cases e; simp)

def get? (d : Dict κ ν) (k : κ) : Option ν :=
  (d.entries.find? fun entry => decide (entry.1 = k)).map Prod.snd

theorem mem_entries {v : ν} : (k, v) ∈ d.entries ↔ d.get? k = some v := by
  constructor
  · intro hmem
    cases hfind : d.entries.find? fun entry => decide (entry.1 = k) with
    | none =>
      have hnone := List.find?_eq_none.mp hfind (k, v) hmem
      simp at hnone
    | some entry =>
      have hentry := List.mem_of_find?_eq_some hfind
      have hkey : entry.1 = k := by simpa using List.find?_some hfind
      -- keys are distinct, so the entry found is the given one
      have heq : entry = (k, v) := List.inj_on_of_nodup_map d.nodup hentry hmem hkey
      simp [get?, hfind, heq]
  · intro hget
    simp only [get?, Option.map_eq_some_iff] at hget
    obtain ⟨⟨k', v'⟩, hfind, rfl⟩ := hget
    have hkey : k' = k := by simpa using List.find?_some hfind
    exact hkey ▸ List.mem_of_find?_eq_some hfind

theorem mem_iff : k ∈ d ↔ ∃ v, d.get? k = some v := by
  rw [← mem_keys, keys, List.mem_map]
  constructor
  · rintro ⟨⟨k', v⟩, hmem, rfl⟩
    exact ⟨v, mem_entries.mp hmem⟩
  · rintro ⟨v, hget⟩
    exact ⟨(k, v), mem_entries.mpr hget, rfl⟩

theorem get?_eq_none_iff : d.get? k = none ↔ k ∉ d := by
  rw [mem_iff]
  cases d.get? k <;> simp

theorem mem_of_get? {v : ν} (hget : d.get? k = some v) : k ∈ d :=
  mem_iff.mpr ⟨v, hget⟩

theorem mem_values {v : ν} : v ∈ d.values ↔ ∃ k, d.get? k = some v := by
  simp only [values, List.mem_map, Prod.exists, exists_eq_right, mem_entries]

/-- A projection of the values has no repetition exactly when it separates the keys. -/
theorem nodup_map_values {f : ν → ω} :
    (d.values.map f).Nodup ↔ ∀ k k' v v', d.get? k = some v → d.get? k' = some v' →
      f v = f v' → k = k' := by
  have hentries : d.entries.Nodup := d.nodup.of_map
  rw [values, List.map_map, List.nodup_map_iff_inj_on hentries]
  constructor
  · intro hinj k k' v v' hget hget' heq
    have hsame := hinj (k, v) (mem_entries.mpr hget) (k', v') (mem_entries.mpr hget') heq
    exact congrArg Prod.fst hsame
  · rintro hsep ⟨k, v⟩ hmem ⟨k', v'⟩ hmem' heq
    rw [mem_entries] at hmem hmem'
    have hkey := hsep k k' v v' hmem hmem' heq
    rw [hkey, hmem'] at hmem
    rw [hkey, Option.some.inj hmem]

@[simp] theorem get?_empty (k : κ) : (empty : Dict κ ν).get? k = none := rfl

omit [DecidableEq κ] in
@[simp] theorem not_mem_empty (k : κ) : k ∉ (empty : Dict κ ν) := List.not_mem_nil

/-! ### Writing one key -/

/-- Replace the value of a present key in place, or append the entry. -/
def setEntries (k : κ) (v : ν) : List (κ × ν) → List (κ × ν)
  | [] => [(k, v)]
  | entry :: rest =>
    if entry.1 = k then (k, v) :: rest else entry :: setEntries k v rest

theorem mem_setEntries_keys (k : κ) (v : ν) (entries : List (κ × ν)) (k' : κ) :
    k' ∈ (setEntries k v entries).map Prod.fst ↔ k' = k ∨ k' ∈ entries.map Prod.fst := by
  induction entries with
  | nil => simp [setEntries]
  | cons entry rest ih =>
    by_cases hkey : entry.1 = k
    · simp [setEntries, hkey]
    · simp only [setEntries, if_neg hkey, List.map_cons, List.mem_cons, ih]
      tauto

theorem setEntries_nodup (k : κ) (v : ν) (entries : List (κ × ν))
    (hnodup : (entries.map Prod.fst).Nodup) : ((setEntries k v entries).map Prod.fst).Nodup := by
  induction entries with
  | nil => simp [setEntries]
  | cons entry rest ih =>
    rw [List.map_cons, List.nodup_cons] at hnodup
    by_cases hkey : entry.1 = k
    · simpa [setEntries, hkey] using hnodup
    · rw [setEntries, if_neg hkey, List.map_cons, List.nodup_cons]
      refine ⟨?_, ih hnodup.2⟩
      rw [mem_setEntries_keys]
      rintro (heq | hmem)
      · exact hkey heq
      · exact hnodup.1 hmem

theorem find?_setEntries (k : κ) (v : ν) (entries : List (κ × ν)) (k' : κ) :
    ((setEntries k v entries).find? fun entry => decide (entry.1 = k')).map Prod.snd =
      if k' = k then some v
      else (entries.find? fun entry => decide (entry.1 = k')).map Prod.snd := by
  induction entries with
  | nil =>
    by_cases hk : k' = k
    · simp [setEntries, hk]
    · simp [setEntries, hk, Ne.symm hk]
  | cons entry rest ih =>
    by_cases hkey : entry.1 = k
    · by_cases hk : k' = k
      · simp [setEntries, hkey, hk]
      · simp [setEntries, hkey, hk, Ne.symm hk]
    · by_cases hentry : entry.1 = k'
      · have hk : k' ≠ k := fun heq => hkey (hentry.trans heq)
        simp [setEntries, hentry, hk]
      · simpa [setEntries, hkey, hentry, List.find?_cons] using ih

/-- `d[k] = v`. -/
def set (d : Dict κ ν) (k : κ) (v : ν) : Dict κ ν :=
  ⟨setEntries k v d.entries, setEntries_nodup k v d.entries d.nodup⟩

theorem get?_set (d : Dict κ ν) (k : κ) (v : ν) (k' : κ) :
    (d.set k v).get? k' = if k' = k then some v else d.get? k' :=
  find?_setEntries k v d.entries k'

@[simp] theorem get?_set_self (d : Dict κ ν) (k : κ) (v : ν) : (d.set k v).get? k = some v := by
  rw [get?_set, if_pos rfl]

variable {k' : κ}

theorem get?_set_of_ne (d : Dict κ ν) (v : ν) (hne : k' ≠ k) : (d.set k v).get? k' = d.get? k' := by
  rw [get?_set, if_neg hne]

theorem get?_set_eq_some {v v' : ν} : (d.set k v).get? k' = some v' ↔
    k' = k ∧ v = v' ∨ k' ≠ k ∧ d.get? k' = some v' := by
  rw [get?_set]
  by_cases hk : k' = k <;> simp [hk]

@[simp] theorem mem_set {v : ν} : k' ∈ d.set k v ↔ k' = k ∨ k' ∈ d :=
  mem_setEntries_keys k v d.entries k'

/-! ### Removing, selecting and rewriting entries -/

def filter (d : Dict κ ν) (keep : κ → ν → Bool) : Dict κ ν where
  entries := d.entries.filter fun entry => keep entry.1 entry.2
  nodup := d.nodup.sublist (List.filter_sublist.map Prod.fst)

theorem get?_filter (d : Dict κ ν) (keep : κ → ν → Bool) (k : κ) :
    (d.filter keep).get? k = (d.get? k).filter (keep k) := by
  apply Option.ext
  intro v
  have hfilter : (k, v) ∈ (d.filter keep).entries ↔ (k, v) ∈ d.entries ∧ keep k v = true :=
    List.mem_filter
  rw [← mem_entries, hfilter, mem_entries, Option.filter_eq_some_iff]

/-- A part selected by its keys. -/
theorem get?_filter_key (d : Dict κ ν) (keep : κ → Prop) [DecidablePred keep] (k : κ) :
    (d.filter fun k _ => decide (keep k)).get? k = if keep k then d.get? k else none := by
  rw [get?_filter]
  by_cases hk : keep k <;> cases d.get? k <;> simp [hk]

/-- `del d[k]`, or `d.pop(k, None)`. -/
def erase (d : Dict κ ν) (k : κ) : Dict κ ν := d.filter fun k' _ => !decide (k' = k)

theorem get?_erase (d : Dict κ ν) (k k' : κ) :
    (d.erase k).get? k' = if k' = k then none else d.get? k' := by
  rw [erase, get?_filter]
  by_cases hk : k' = k <;> cases d.get? k' <;> simp [hk, Option.filter]

theorem get?_erase_eq_some {v : ν} : (d.erase k).get? k' = some v ↔
    k' ≠ k ∧ d.get? k' = some v := by
  rw [get?_erase]
  by_cases hk : k' = k <;> simp [hk]

@[simp] theorem mem_erase : k' ∈ d.erase k ↔ k' ≠ k ∧ k' ∈ d := by
  rw [mem_iff, get?_erase, mem_iff]
  by_cases hk : k' = k <;> simp [hk]

def mapValues (d : Dict κ ν) (f : κ → ν → ω) : Dict κ ω where
  entries := d.entries.map fun entry => (entry.1, f entry.1 entry.2)
  nodup := by
    have hkeys : (d.entries.map fun entry => (entry.1, f entry.1 entry.2)).map Prod.fst =
        d.entries.map Prod.fst := by simp
    rw [hkeys]
    exact d.nodup

theorem get?_mapValues (d : Dict κ ν) (f : κ → ν → ω) (k : κ) :
    (d.mapValues f).get? k = (d.get? k).map (f k) := by
  apply Option.ext
  intro w
  rw [← mem_entries]
  simp only [mapValues, List.mem_map, Prod.mk.injEq, Prod.exists, Option.map_eq_some_iff]
  constructor
  · rintro ⟨k', v, hmem, rfl, rfl⟩
    exact ⟨v, mem_entries.mp hmem, rfl⟩
  · rintro ⟨v, hget, rfl⟩
    exact ⟨k, v, mem_entries.mpr hget, rfl, rfl⟩

theorem mapValues_eq_self {f : κ → ν → ν} (hsame : ∀ k v, d.get? k = some v → f k v = v)
    : d.mapValues f = d := by
  have hentries : (d.mapValues f).entries = d.entries := by
    refine (List.map_congr_left fun entry hentry => ?_).trans (List.map_id _)
    rw [hsame entry.1 entry.2 (mem_entries.mp hentry)]
    rfl
  cases d
  simp only [mapValues] at hentries ⊢
  congr

/-! ### Merging -/

/-- `d.update(e)`: write every entry of `e`, in its order. -/
def update (d e : Dict κ ν) : Dict κ ν :=
  e.entries.foldl (fun acc entry => acc.set entry.1 entry.2) d

variable {ι : Type*}

/-- A loop of assignments keeps the last item of each key. -/
theorem get?_foldl_set_last (key : ι → κ) (value : ι → ν) (items : List ι) (d : Dict κ ν) (k : κ) :
    (items.foldl (fun acc item => acc.set (key item) (value item)) d).get? k =
      (((items.filter fun item => key item = k).getLast?).map value).or (d.get? k) := by
  induction items generalizing d with
  | nil => rfl
  | cons item items ih =>
    rw [List.foldl_cons, ih, get?_set, List.filter_cons]
    by_cases hkey : key item = k
    · rw [if_pos hkey.symm, if_pos (decide_eq_true hkey), List.getLast?_cons]
      cases (items.filter fun item => key item = k).getLast? <;> rfl
    · rw [if_neg (Ne.symm hkey), if_neg (by simpa using hkey)]

theorem get?_update (d e : Dict κ ν) (k : κ) : (d.update e).get? k = (e.get? k).or (d.get? k) := by
  rw [update, get?_foldl_set_last Prod.fst Prod.snd]
  cases hlast : (e.entries.filter fun entry => entry.1 = k).getLast? with
  | none =>
    rw [List.getLast?_eq_none_iff, List.filter_eq_nil_iff] at hlast
    have hnone : e.get? k = none := by
      rw [get?_eq_none_iff, ← mem_keys, keys, List.mem_map]
      rintro ⟨entry, hentry, hkey⟩
      exact hlast entry hentry (decide_eq_true hkey)
    rw [hnone]
    rfl
  | some entry =>
    obtain ⟨hentry, hkey⟩ := List.mem_filter.mp (List.mem_of_getLast? hlast)
    have hget : e.get? entry.1 = some entry.2 := mem_entries.mp hentry
    rw [← of_decide_eq_true hkey, hget]
    rfl

theorem mem_update : k ∈ d.update e ↔ k ∈ e ∨ k ∈ d := by
  rw [mem_iff, get?_update, mem_iff, mem_iff]
  cases e.get? k <;> simp

/-! ### Fallible rewriting -/

omit [DecidableEq κ] in
theorem ext_entries (hentries : d.entries = e.entries) : d = e := by
  cases d
  cases e
  simpa using hentries

theorem set_entries_of_not_mem (v : ν) (hfresh : k ∉ d) :
    (d.set k v).entries = d.entries ++ [(k, v)] := by
  have hkeys : k ∉ d.entries.map Prod.fst := hfresh
  show setEntries k v d.entries = _
  generalize d.entries = entries at hkeys
  induction entries with
  | nil => rfl
  | cons entry rest ih =>
    rw [List.map_cons, List.mem_cons, not_or] at hkeys
    rw [setEntries, if_neg (Ne.symm hkeys.1), ih hkeys.2, List.cons_append]

theorem keys_foldl_set (key : ι → κ) (value : ι → ν) (items : List ι) (acc : Dict κ ν)
    (hnodup : (items.map key).Nodup) (hfresh : ∀ item ∈ items, key item ∉ acc) :
    (items.foldl (fun acc item => acc.set (key item) (value item)) acc).keys =
      acc.keys ++ items.map key := by
  induction items generalizing acc with
  | nil => simp
  | cons first rest ih =>
    rw [List.map_cons, List.nodup_cons] at hnodup
    have hkeys : (acc.set (key first) (value first)).keys = acc.keys ++ [key first] := by
      rw [keys, set_entries_of_not_mem _ (hfresh first List.mem_cons_self), List.map_append]
      rfl
    rw [List.foldl_cons, ih _ hnodup.2, hkeys, List.append_assoc, List.map_cons,
      List.singleton_append]
    intro item hmem
    rw [mem_set, not_or]
    exact ⟨fun heq => hnodup.1 (heq ▸ List.mem_map_of_mem hmem),
      hfresh item (List.mem_cons_of_mem _ hmem)⟩

/-- Rewrite every value in order, stopping at the first refusal. -/
def traverse (d : Dict κ ν) (f : κ → ν → Except ε ω) : Except ε (Dict κ ω) :=
  d.entries.foldlM (fun acc entry => do
    let value ← f entry.1 entry.2
    pure (acc.set entry.1 value)) empty

/-- What a loop that stores one value per item leaves under each key. -/
theorem get?_of_foldlM_set {key : ι → κ} {f : ι → Except ε ν} (items : List ι)
    (hnodup : (items.map key).Nodup) {acc result : Dict κ ν}
    (hok : items.foldlM (fun acc item => do
      let value ← f item
      pure (acc.set (key item) value)) acc = .ok result) :
    (∀ item ∈ items, ∃ v, f item = .ok v ∧ result.get? (key item) = some v) ∧
      ∀ k ∉ items.map key, result.get? k = acc.get? k := by
  induction items generalizing acc with
  | nil =>
    rw [List.foldlM_nil, pure_eq_ok] at hok
    exact ⟨nofun, fun _ _ => hok ▸ rfl⟩
  | cons item items ih =>
    rw [List.map_cons, List.nodup_cons] at hnodup
    simp only [List.foldlM_cons, bind_eq_ok, pure_eq_ok] at hok
    obtain ⟨_, ⟨value, hvalue, rfl⟩, hrest⟩ := hok
    obtain ⟨hstored, hkept⟩ := ih hnodup.2 hrest
    refine ⟨fun other hmem => ?_, fun k hnot => ?_⟩
    · rcases List.mem_cons.mp hmem with rfl | hmem
      · exact ⟨value, hvalue, (hkept _ hnodup.1).trans (get?_set_self _ _ _)⟩
      · exact hstored other hmem
    · rw [List.map_cons, List.mem_cons, not_or] at hnot
      rw [hkept k hnot.2, get?_set_of_ne _ _ hnot.1]

def insertNew (d : Dict κ ν) (k : κ) (v : ν) (e : ε) : Except ε (Dict κ ν) := do
  require (k ∉ d) e
  pure (d.set k v)

/-- Distinct new keys are all inserted, and every other row is kept. -/
theorem foldlM_insertNew_ok {key : ι → κ} {value : ι → ν} {e : ε} (items : List ι)
    (hnodup : (items.map key).Nodup) {acc : Dict κ ν} (hfresh : ∀ item ∈ items, key item ∉ acc) :
    ∃ result, items.foldlM (fun acc item => acc.insertNew (key item) (value item) e) acc =
      .ok result ∧ (∀ item ∈ items, result.get? (key item) = some (value item)) ∧
        ∀ k ∉ items.map key, result.get? k = acc.get? k := by
  induction items generalizing acc with
  | nil => exact ⟨acc, rfl, fun _ hmem => absurd hmem List.not_mem_nil, fun _ _ => rfl⟩
  | cons item items ih =>
    rw [List.map_cons, List.nodup_cons] at hnodup
    obtain ⟨hitem, hrest⟩ := List.forall_mem_cons.mp hfresh
    have hstill : ∀ later ∈ items, key later ∉ acc.set (key item) (value item) := by
      intro later hlater hmem
      rcases mem_set.mp hmem with hsame | hold
      · exact hnodup.1 (hsame ▸ List.mem_map_of_mem hlater)
      · exact hrest later hlater hold
    obtain ⟨result, hresult, hstored, hother⟩ := ih hnodup.2 hstill
    refine ⟨result, ?_, List.forall_mem_cons.mpr ⟨?_, hstored⟩, fun k hnot => ?_⟩
    · simp only [List.foldlM_cons, insertNew, bind_eq_ok, require_eq_ok, exists_const, pure_eq_ok]
      exact ⟨_, ⟨hitem, rfl⟩, hresult⟩
    · rw [hother _ hnodup.1, get?_set_self]
    · rw [List.map_cons, List.mem_cons, not_or] at hnot
      rw [hother k hnot.2, get?_set_of_ne _ _ hnot.1]

/-- A rewriting that refuses no stored value goes through. -/
theorem traverse_ok {f : κ → ν → Except ε ω}
    (hrow : ∀ k v, d.get? k = some v → ∃ w, f k v = .ok w) : ∃ result, d.traverse f = .ok result := by
  refine foldlM_ok d.entries (fun entry hentry acc => ?_) empty
  obtain ⟨w, hw⟩ := hrow entry.1 entry.2 (mem_entries.mp hentry)
  exact ⟨acc.set entry.1 w, bind_eq_ok.mpr ⟨w, hw, rfl⟩⟩

theorem get?_of_traverse {f : κ → ν → Except ε ω} {result : Dict κ ω}
    (hok : d.traverse f = .ok result) (k : κ) :
    (∀ v, d.get? k = some v → ∃ w, f k v = .ok w ∧ result.get? k = some w) ∧
      (d.get? k = none → result.get? k = none) := by
  obtain ⟨hstored, hkept⟩ := get?_of_foldlM_set d.entries d.nodup hok
  refine ⟨fun v hget => hstored (k, v) (mem_entries.mpr hget), fun hnone => ?_⟩
  exact (hkept k (get?_eq_none_iff.mp hnone)).trans (get?_empty k)

/-- A dictionary is its keys in order and what they are mapped to. -/
theorem ext_get? (hkeys : d.keys = e.keys) (hget : ∀ k, d.get? k = e.get? k) : d = e := by
  have hentries : ∀ d : Dict κ ν, d.entries.map some =
      d.keys.map fun k => (d.get? k).map (Prod.mk k) := by
    intro d
    rw [keys, List.map_map]
    refine List.map_congr_left fun entry hmem => ?_
    rw [Function.comp_apply, mem_entries.mp hmem]
    rfl
  refine ext_entries (List.map_injective_iff.mpr (fun _ _ => Option.some.inj) ?_)
  rw [hentries, hentries, hkeys]
  simp only [hget]

/-- Decoding every encoded value gives the dictionary back. -/
theorem traverse_mapValues {encode : κ → ν → ω} (hdecode : ∀ k v, decode k (encode k v) = .ok v)
    (d : Dict κ ν) : (d.mapValues encode).traverse decode = .ok d := by
  have hrun : (d.mapValues encode).traverse decode = .ok (empty.update d) := by
    simp only [traverse, mapValues, List.foldlM_map, hdecode]
    exact List.foldlM_pure
  rw [hrun]
  refine congrArg Except.ok (ext_get? (keys_foldl_set Prod.fst Prod.snd d.entries empty d.nodup
    fun entry _ => not_mem_empty entry.1) fun k => ?_)
  rw [get?_update, get?_empty, Option.or_none]

def tabulate (keys : List κ) (f : κ → ν) : Dict κ ν :=
  keys.foldl (fun acc k => acc.set k (f k)) empty

theorem get?_foldl_tabulate (keys : List κ) (f : κ → ν) (acc : Dict κ ν) (k : κ) :
    (keys.foldl (fun acc k => acc.set k (f k)) acc).get? k =
      if k ∈ keys then some (f k) else acc.get? k := by
  induction keys generalizing acc with
  | nil => simp
  | cons first rest ih =>
    rw [List.foldl_cons, ih, get?_set]
    by_cases hrest : k ∈ rest
    · simp [hrest]
    · by_cases hfirst : k = first
      · subst hfirst
        simp
      · simp [hrest, hfirst]

theorem get?_tabulate (keys : List κ) (f : κ → ν) (k : κ) :
    (tabulate keys f).get? k = if k ∈ keys then some (f k) else none := by
  rw [tabulate, get?_foldl_tabulate, get?_empty]

theorem mem_tabulate_keys {keys : List κ} {f : κ → ν} : k ∈ (tabulate keys f).keys ↔ k ∈ keys := by
  rw [mem_keys, mem_iff, get?_tabulate]
  by_cases hk : k ∈ keys <;> simp [hk]

/-- Tabulating a table's own keys gives it back. -/
theorem tabulate_keys (keys : List κ) (f : κ → ν) :
    tabulate (tabulate keys f).keys f = tabulate keys f := by
  refine ext_get? ?_ fun k => ?_
  · have hkeys := keys_foldl_set id f (tabulate keys f).keys empty
      (by rw [List.map_id]; exact (tabulate keys f).nodup) fun k _ => not_mem_empty k
    exact hkeys.trans (List.map_id _)
  · rw [get?_tabulate, get?_tabulate]
    simp only [mem_tabulate_keys]

/-- A loop whose every step succeeds tabulates the results. -/
theorem foldlM_set_tabulate {f : κ → Except ε ν} {g : κ → ν} (keys : List κ) (acc : Dict κ ν)
    (hok : ∀ k ∈ keys, f k = .ok (g k)) :
    keys.foldlM (fun acc k => do
      let value ← f k
      pure (acc.set k value)) acc = .ok (keys.foldl (fun acc k => acc.set k (g k)) acc) := by
  induction keys generalizing acc with
  | nil => rfl
  | cons first rest ih =>
    rw [List.foldlM_cons, hok first List.mem_cons_self, List.foldl_cons]
    exact ih _ fun k hmem => hok k (List.mem_cons_of_mem _ hmem)

/-- `dict.fromkeys(keys)`: the keys in the order of their first occurrence. -/
def fromKeys (keys : List κ) : Dict κ Unit :=
  keys.foldl (fun acc k => acc.set k ()) empty

theorem mem_fromKeys {keys : List κ} : k ∈ (fromKeys keys).keys ↔ k ∈ keys :=
  mem_tabulate_keys

end Lookup

end Dict

end AgentComms.Library
