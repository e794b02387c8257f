import AgentComms.Reads.Selected
import AgentComms.Registry.Wire

/-!
# The incremental unread counter

A selected query that was counted before adds the rows appended since. One whose
cursor moved corrects its earlier count over the targets that moved, above the
first sequence the two cursors read differently. `unread_counter_exact` says that
in a run without the two cases named by `Steady` the counter is the full recount.
-/

namespace AgentComms.Reads

open Library Registry

inductive UnreadError where
  /-- `min()` of an empty iterable. -/
  | emptyMinimum
deriving DecidableEq, Repr

namespace UnreadQuery

def counting (query : UnreadQuery) : UnreadQuery := { query with cursors := [], lowerBound := 0 }

def within (query : UnreadQuery) (targets : List String) (floor : Nat) : UnreadQuery :=
  { query with
    lowerBound := max query.lowerBound floor
    predicate := .within query.predicate targets }

/-- `{row.key: row for row in cursors}`. -/
def byKey (query : UnreadQuery) : Dict (String × String) CursorRow :=
  query.cursors.foldl (fun rows row => rows.set row.key row) Dict.empty

def changed (earlier current : UnreadQuery) : List (String × String) :=
  (earlier.byKey.keys ++ current.byKey.keys).dedup.filter fun key =>
    earlier.byKey.get? key ≠ current.byKey.get? key

def changedRows (earlier current : UnreadQuery) : List CursorRow :=
  (changed earlier current).filterMap earlier.byKey.get? ++
    (changed earlier current).filterMap current.byKey.get?

/-- The cursor of a pair; one without a row has read nothing. -/
def keyCursor (query : UnreadQuery) (key : String × String) : ConversationCursor :=
  ((query.byKey.get? key).map CursorRow.cursor).getD .empty

/-- Up to where each changed pair is read alike. -/
def agreed (earlier current : UnreadQuery) : List Nat :=
  (changed earlier current).map fun key =>
    (earlier.keyCursor key).agreesThrough (current.keyCursor key)

/-- None when a whole-bus read moved. -/
def moved (current earlier : UnreadQuery) :
    Except UnreadError (Option (UnreadQuery × UnreadQuery)) :=
  if (changedRows earlier current).any CursorRow.wholeBus then .ok none
  else
    match (agreed earlier current).min? with
    | none => .error .emptyMinimum
    | some floor =>
      let targets := sortedSet ((changedRows earlier current).map CursorRow.target)
      .ok (some (earlier.within targets floor, current.within targets floor))

end UnreadQuery

/-! ### The counter -/

/-- Counts by query, through one revision once there is one. -/
structure DisplayUnread where
  through : Option Nat
  counted : Dict UnreadQuery Int
deriving DecidableEq

namespace DisplayUnread

def empty : DisplayUnread := ⟨none, Dict.empty⟩

def counts (held : DisplayUnread) : Dict String Int :=
  held.counted.entries.foldl (fun counts entry => counts.set entry.1.channel entry.2) Dict.empty

variable (held : DisplayUnread)

/-- `{query.counting: query for query in self.counted}`, with each query's count. -/
def earlier : Dict UnreadQuery (UnreadQuery × Int) :=
  held.counted.entries.foldl (fun found entry => found.set entry.1.counting entry) Dict.empty

def appended (bus : ReadBus) (query : UnreadQuery) : Int :=
  if held.through = some bus.revision then 0
  else query.countUnread bus (held.through.getD 0) bus.revision

/-- One selected query's count: kept, moved or fresh. -/
def recount (bus : ReadBus) (query : UnreadQuery) : Except UnreadError Int :=
  match held.counted.get? query with
  | some count => .ok (count + held.appended bus query)
  | none =>
    match held.earlier.get? query.counting with
    | none => .ok (query.countUnread bus 0 bus.revision)
    | some (previous, count) => do
        match ← query.moved previous with
        | none => pure (query.countUnread bus 0 bus.revision)
        | some (before, after) =>
          pure (count + held.appended bus previous - before.countUnread bus 0 bus.revision +
            after.countUnread bus 0 bus.revision)

def advanced (bus : ReadBus) (selection : Selection) : Except UnreadError DisplayUnread :=
  if held.through = some bus.revision ∧ held.counted.keys = selection.queries then .ok held
  else do
    let counted ← selection.queries.foldlM (fun counted query => do
      let count ← held.recount bus query
      pure (counted.set query count)) Dict.empty
    pure ⟨some bus.revision, counted⟩

end DisplayUnread

/-- Every selected scope's whole interval. -/
def displayUnread (bus : ReadBus) (queries : List UnreadQuery) (through : Nat) : DisplayUnread :=
  ⟨some through, Dict.tabulate queries fun query => query.countUnread bus 0 through⟩

/-! ### Sums over the log -/

namespace UnreadQuery

def share (query : UnreadQuery) (after through : Nat) (message : Message) : Nat :=
  if query.counts after through message then query.copies message else 0

theorem countUnread_eq_sum (query : UnreadQuery) (bus : ReadBus) (after through : Nat) :
    query.countUnread bus after through =
      (bus.messages.map (query.share after through)).sum := by
  unfold countUnread
  induction bus.messages with
  | nil => rfl
  | cons message messages ih =>
    rw [List.map_cons, List.sum_cons, ← ih, share, List.filter_cons]
    split <;> simp

/-- Counting through a revision and from it on is counting all. -/
theorem countUnread_split (query : UnreadQuery) (bus : ReadBus) {middle through : Nat}
    (hle : middle ≤ through) :
    query.countUnread bus 0 middle + query.countUnread bus middle through =
      query.countUnread bus 0 through := by
  simp only [countUnread_eq_sum, ← List.sum_map_add]
  refine congrArg List.sum (List.map_congr_left fun message _ => ?_)
  by_cases hbefore : message.seq ≤ middle
  · have hafter : ¬ query.counts middle through message := by
      rw [counts, decide_eq_true_iff]
      omega
    have hsame : query.counts 0 middle message = query.counts 0 through message := by
      simp only [counts, hbefore, hbefore.trans hle]
    rw [share, share, share, if_neg hafter, Nat.add_zero, hsame]
  · have hbefore' : ¬ query.counts 0 middle message := by
      rw [counts, decide_eq_true_iff]
      omega
    have hsame : query.counts middle through message = query.counts 0 through message := by
      have hbounds : max middle query.lowerBound < message.seq ↔
          max 0 query.lowerBound < message.seq := by omega
      simp only [counts, hbounds]
    rw [share, share, share, if_neg hbefore', Nat.zero_add, hsame]

/-- A later message adds nothing to an earlier interval. -/
theorem countUnread_append (query : UnreadQuery) (bus : ReadBus) (draft : Message)
    {through : Nat} (hle : through ≤ bus.revision) :
    query.countUnread (bus.append draft) 0 through = query.countUnread bus 0 through := by
  have hlater : ¬ query.counts 0 through { draft with seq := bus.revision + 1 } := by
    rw [counts, decide_eq_true_iff]
    rintro ⟨-, hseq, -⟩
    exact absurd hseq (by show ¬ bus.revision + 1 ≤ through; omega)
  rw [countUnread_eq_sum, countUnread_eq_sum]
  show ((bus.messages ++ [_]).map _).sum = _
  rw [List.map_append, List.sum_append, List.map_singleton, List.sum_singleton, share,
    if_neg hlater, Nat.add_zero]

/-! ### Moved cursors -/

theorem get?_byKey (query : UnreadQuery) (key : String × String) :
    query.byKey.get? key = (query.rowsAt key).getLast? := by
  have hlast := Dict.get?_foldl_set_last CursorRow.key id query.cursors Dict.empty key
  rw [Dict.get?_empty, Option.or_none, Option.map_id] at hlast
  exact hlast

theorem keyCursor_eq (query : UnreadQuery) (key : String × String) :
    query.keyCursor key = query.cursorAt key := by
  rw [keyCursor, cursorAt, get?_byKey]

variable {key : String × String}

theorem key_of_byKey {query : UnreadQuery} {row : CursorRow}
    (hget : query.byKey.get? key = some row) : row.key = key := by
  rw [get?_byKey] at hget
  exact of_decide_eq_true (List.mem_filter.mp (List.mem_of_getLast? hget)).2

theorem mem_changed {earlier current : UnreadQuery} :
    key ∈ changed earlier current ↔ earlier.byKey.get? key ≠ current.byKey.get? key := by
  rw [changed, List.mem_filter, decide_eq_true_iff, List.mem_dedup, List.mem_append]
  refine ⟨And.right, fun hne => ⟨?_, hne⟩⟩
  rw [Dict.mem_keys, Dict.mem_keys]
  by_contra hneither
  rw [not_or] at hneither
  rw [Dict.get?_eq_none_iff.mpr hneither.1, Dict.get?_eq_none_iff.mpr hneither.2] at hne
  exact hne rfl

/-- A changed pair has a row on one of the two sides. -/
theorem exists_changedRow {earlier current : UnreadQuery}
    (hchanged : key ∈ changed earlier current) :
    ∃ row ∈ changedRows earlier current, row.key = key := by
  have hne := mem_changed.mp hchanged
  cases hbefore : earlier.byKey.get? key with
  | some row =>
    refine ⟨row, List.mem_append_left _ ?_, key_of_byKey hbefore⟩
    exact List.mem_filterMap.mpr ⟨key, hchanged, hbefore⟩
  | none =>
    cases hafter : current.byKey.get? key with
    | some row =>
      refine ⟨row, List.mem_append_right _ ?_, key_of_byKey hafter⟩
      exact List.mem_filterMap.mpr ⟨key, hchanged, hafter⟩
    | none => exact absurd (hbefore.trans hafter.symm) hne

/-- Two queries whose difference the correction sees: a pair changed, and every pair is
spelled equally often, always with one cursor. -/
def Correctable (earlier current : UnreadQuery) : Prop :=
  changed earlier current ≠ [] ∧ earlier.Consistent ∧ current.Consistent ∧
    ∀ row ∈ earlier.cursors ++ current.cursors, earlier.repeats row.key = current.repeats row.key

/-- The rows of the interval that a query looks at, above no lower bound. -/
def Looks (query : UnreadQuery) (through : Nat) (message : Message) : Prop :=
  message.seq ≤ through ∧ query.predicate.selects message = true ∧
    message.sender ∉ query.viewerNames

instance (query : UnreadQuery) (through : Nat) (message : Message) :
    Decidable (query.Looks through message) := inferInstanceAs (Decidable (_ ∧ _))

section Moved

variable {earlier current : UnreadQuery} {message : Message} {through : Nat}

theorem repeats_eq (hcorrectable : Correctable earlier current) (key : String × String) :
    earlier.repeats key = current.repeats key := by
  obtain ⟨-, -, -, hrepeats⟩ := hcorrectable
  by_cases hrow : ∃ row ∈ earlier.cursors ++ current.cursors, row.key = key
  · obtain ⟨row, hmem, rfl⟩ := hrow
    exact hrepeats row hmem
  · have hnone : ∀ query : UnreadQuery, (∀ row ∈ query.cursors, row.key ≠ key) →
        query.repeats key = 1 := by
      intro query hkeys
      rw [repeats, rowsAt, List.filter_eq_nil_iff.mpr fun row hmem => by
        simpa using hkeys row hmem]
      rfl
    push Not at hrow
    rw [hnone earlier fun row hmem => hrow row (List.mem_append_left _ hmem),
      hnone current fun row hmem => hrow row (List.mem_append_right _ hmem)]

/-- A lower bound takes nothing from a count. -/
theorem share_eq {selection : Selection} (hquery : current ∈ selection.queries)
    (hconsistent : current.Consistent) (hpos : 0 < message.seq) :
    current.share 0 through message =
      if current.Looks through message then current.copies message else 0 := by
  rw [share]
  by_cases hlooks : current.Looks through message
  · rw [if_pos hlooks]
    by_cases hbound : message.seq ≤ current.lowerBound
    · have hread := Selection.read_of_le_lowerBound hquery hpos hlooks.2.1 hbound
      rw [copies_eq (Selection.spelled_of_mem hquery) hconsistent hpos, if_pos hread, ite_self]
    · rw [if_pos]
      exact decide_eq_true ⟨by omega, hlooks⟩
  · rw [if_neg hlooks, if_neg]
    exact fun hcounts => hlooks (of_decide_eq_true hcounts).2

/-- What the part of a query over some targets above a floor counts. -/
theorem share_within {selection : Selection} (hquery : current ∈ selection.queries)
    (hconsistent : current.Consistent) (hpos : 0 < message.seq) (targets : List String)
    (floor : Nat) :
    (current.within targets floor).share 0 through message =
      if current.Looks through message ∧ message.target ∈ targets ∧ floor < message.seq then
        current.copies message else 0 := by
  have hcopies : (current.within targets floor).copies message = current.copies message := rfl
  rw [share, hcopies]
  by_cases hwindow : current.Looks through message ∧ message.target ∈ targets ∧ floor < message.seq
  · rw [if_pos hwindow]
    obtain ⟨hlooks, htarget, hfloor⟩ := hwindow
    have hselects : (current.within targets floor).predicate.selects message = true := by
      show (current.predicate.selects message && decide (message.target ∈ targets)) = true
      rw [hlooks.2.1, decide_eq_true htarget, Bool.and_self]
    by_cases hbound : message.seq ≤ current.lowerBound
    · have hread := Selection.read_of_le_lowerBound hquery hpos hlooks.2.1 hbound
      rw [copies_eq (Selection.spelled_of_mem hquery) hconsistent hpos, if_pos hread, ite_self]
    · rw [if_pos]
      refine decide_eq_true ⟨?_, hlooks.1, hselects, hlooks.2.2⟩
      show max 0 (max current.lowerBound floor) < message.seq
      omega
  · rw [if_neg hwindow, if_neg]
    intro hcounts
    obtain ⟨hbounds, hseq, hselects, hsender⟩ := of_decide_eq_true hcounts
    have hboth : (current.predicate.selects message && decide (message.target ∈ targets)) = true :=
      hselects
    rw [Bool.and_eq_true, decide_eq_true_iff] at hboth
    have hbounds : max 0 (max current.lowerBound floor) < message.seq := hbounds
    exact hwindow ⟨⟨hseq, hboth.1, hsender⟩, hboth.2, by omega⟩

/-- A correction is found whenever a pair changed and no whole-bus read moved. -/
theorem moved_cases (hchanged : (changedRows earlier current).any CursorRow.wholeBus = true ∨
      changed earlier current ≠ []) :
    current.moved earlier = .ok none ∨
      (changedRows earlier current).any CursorRow.wholeBus = false ∧ ∃ targets floor,
        current.moved earlier =
          .ok (some (earlier.within targets floor, current.within targets floor)) ∧
        (∀ row ∈ changedRows earlier current, row.target ∈ targets) ∧
          ∀ key ∈ changed earlier current,
            floor ≤ (earlier.keyCursor key).agreesThrough (current.keyCursor key) := by
  cases hwhole : (changedRows earlier current).any CursorRow.wholeBus with
  | true => exact .inl (by rw [moved, if_pos hwhole])
  | false =>
    have hsome : agreed earlier current ≠ [] :=
      fun hnil => hchanged.resolve_left (by simp [hwhole]) (List.map_eq_nil_iff.mp hnil)
    refine .inr ⟨rfl, sortedSet ((changedRows earlier current).map CursorRow.target),
      (agreed earlier current).min hsome, ?_, fun row hrow => ?_, fun key hkey => ?_⟩
    · rw [moved, if_neg (by simp [hwhole]), List.min?_eq_some_min hsome]
    · exact mem_sortedSet.mpr (List.mem_map_of_mem hrow)
    · exact List.min_le_of_mem (List.mem_map_of_mem hkey)

variable (hcorrectable : Correctable earlier current)
  (hwhole : (changedRows earlier current).any CursorRow.wholeBus = false) {floor : Nat}
  (hfloor : ∀ key ∈ changed earlier current,
    floor ≤ (earlier.keyCursor key).agreesThrough (current.keyCursor key))
include hcorrectable hwhole hfloor

/-- Outside the window of a correction a message is read alike under both queries. -/
theorem copies_eq_of_outside (hspelled : earlier.Spelled) (hspelled' : current.Spelled)
    (hpos : 0 < message.seq)
    (houtside : message.target ∈ (changedRows earlier current).map CursorRow.target →
      message.seq ≤ floor) :
    earlier.copies message = current.copies message := by
  have hall : earlier.cursorAt ("", "") = current.cursorAt ("", "") := by
    have hunchanged : ("", "") ∉ changed earlier current := by
      intro hchanged
      obtain ⟨row, hmem, hkey⟩ := exists_changedRow hchanged
      refine absurd (List.any_eq_false.mp hwhole row hmem) (not_not.mpr ?_)
      exact decide_eq_true (congrArg Prod.fst hkey)
    rw [mem_changed, not_not] at hunchanged
    rw [← keyCursor_eq, ← keyCursor_eq, keyCursor, keyCursor, hunchanged]
  have hread : message.seq ∈ earlier.cursorAt message.cursorKey ↔
      message.seq ∈ current.cursorAt message.cursorKey := by
    rw [← keyCursor_eq, ← keyCursor_eq]
    by_cases hchanged : message.cursorKey ∈ changed earlier current
    · -- the pair's target is in the window, so the message is below the floor
      obtain ⟨row, hmem, hkey⟩ := exists_changedRow hchanged
      have htarget : row.target = message.target := by
        refine (congrArg Prod.fst hkey).trans ?_
        rw [Message.cursorKey]
        split <;> rfl
      have hbelow := houtside (htarget ▸ List.mem_map_of_mem hmem)
      exact ConversationCursor.mem_iff_of_le_agreesThrough (hbelow.trans (hfloor _ hchanged))
    · rw [mem_changed, not_not] at hchanged
      rw [keyCursor, keyCursor, hchanged]
  rw [copies_eq hspelled hcorrectable.2.1 hpos, copies_eq hspelled' hcorrectable.2.2.1 hpos, hall,
    repeats_eq hcorrectable]
  simp only [hread]

/-- Exchanging the two counts over the window turns one count into the other. -/
theorem countUnread_moved (bus : ReadBus) {selection selection' : Selection}
    (hearlier : earlier ∈ selection'.queries) (hcurrent : current ∈ selection.queries)
    (hcounting : earlier.counting = current.counting) (targets : List String)
    (htargets : ∀ row ∈ changedRows earlier current, row.target ∈ targets) (through : Nat) :
    current.countUnread bus 0 through + (earlier.within targets floor).countUnread bus 0 through =
      earlier.countUnread bus 0 through +
        (current.within targets floor).countUnread bus 0 through := by
  simp only [countUnread_eq_sum, ← List.sum_map_add]
  refine congrArg List.sum (List.map_congr_left fun message hmem => ?_)
  have hpos := (bus.bounded message hmem).1
  have hlooks : earlier.Looks through message ↔ current.Looks through message := by
    have hpredicate : earlier.predicate = current.predicate :=
      (congrArg UnreadQuery.predicate hcounting :)
    have hviewer : earlier.viewerNames = current.viewerNames :=
      (congrArg UnreadQuery.viewerNames hcounting :)
    rw [Looks, Looks, hpredicate, hviewer]
  rw [share_eq hcurrent hcorrectable.2.2.1 hpos, share_eq hearlier hcorrectable.2.1 hpos,
    share_within hcurrent hcorrectable.2.2.1 hpos, share_within hearlier hcorrectable.2.1 hpos]
  simp only [hlooks]
  by_cases hlook : current.Looks through message
  · by_cases hwindow : message.target ∈ targets ∧ floor < message.seq
    · rw [if_pos hlook, if_pos ⟨hlook, hwindow⟩, if_pos hlook, if_pos ⟨hlook, hwindow⟩, add_comm]
    · have hsame : earlier.copies message = current.copies message := by
        refine copies_eq_of_outside hcorrectable hwhole hfloor (Selection.spelled_of_mem hearlier)
          (Selection.spelled_of_mem hcurrent) hpos fun hmoved => ?_
        obtain ⟨row, hrow, htarget⟩ := List.mem_map.mp hmoved
        exact not_lt.mp fun hlt => hwindow ⟨htarget ▸ htargets row hrow, hlt⟩
      simp only [hsame, hwindow, and_false]
  · simp only [hlook, false_and, if_false]

end Moved

end UnreadQuery

/-! ### Refreshing -/

/-- Every selected query that replaces a counted one has a difference that the
correction sees, unless a whole-bus read moved. -/
def Steady (held : DisplayUnread) (selection : Selection) : Prop :=
  ∀ query ∈ selection.queries, query ∉ held.counted.keys →
    ∀ previous ∈ held.counted.keys, previous.counting = query.counting →
      (UnreadQuery.changedRows previous query).any CursorRow.wholeBus = true ∨
        UnreadQuery.Correctable previous query

instance (query : UnreadQuery) : Decidable query.Consistent :=
  inferInstanceAs (Decidable (∀ _ ∈ _, ∀ _ ∈ _, _ → _))

instance (earlier current : UnreadQuery) : Decidable (UnreadQuery.Correctable earlier current) :=
  inferInstanceAs (Decidable (_ ∧ _))

instance (held : DisplayUnread) (selection : Selection) : Decidable (Steady held selection) :=
  inferInstanceAs (Decidable (∀ _ ∈ _, _ → ∀ _ ∈ _, _ → _))

namespace DisplayUnread

/-- A counter is the full count of an earlier selection at an earlier revision. -/
def Exact (held : DisplayUnread) (bus : ReadBus) : Prop :=
  held = empty ∨ ∃ selection : Selection, ∃ through ≤ bus.revision,
    held = displayUnread bus selection.queries through

variable {held : DisplayUnread} {bus : ReadBus} {selection : Selection}

theorem Exact.append (hexact : held.Exact bus) (draft : Message) :
    held.Exact (bus.append draft) := by
  rcases hexact with rfl | ⟨selection, through, hle, rfl⟩
  · exact .inl rfl
  · refine .inr ⟨selection, through, hle.trans (Nat.le_succ _), ?_⟩
    simp only [displayUnread, UnreadQuery.countUnread_append _ bus draft hle]

theorem Exact.advance (hexact : held.Exact bus) : held.Exact bus.advance := by
  rcases hexact with rfl | ⟨selection, through, hle, rfl⟩
  · exact .inl rfl
  · exact .inr ⟨selection, through, hle.trans (Nat.le_succ _), rfl⟩

/-- A held count with the rows appended since is the count through the revision. -/
theorem add_appended (query : UnreadQuery) {through : Nat} (hthrough : held.through = some through)
    (hle : through ≤ bus.revision) :
    (query.countUnread bus 0 through : Int) + held.appended bus query =
      query.countUnread bus 0 bus.revision := by
  rw [appended, hthrough]
  by_cases hsame : through = bus.revision
  · rw [if_pos (congrArg some hsame), hsame, add_zero]
  · rw [if_neg fun h => hsame (Option.some.inj h), Option.getD_some]
    exact_mod_cast query.countUnread_split bus hle

/-- The earlier query of a rule is a counted one, with its count. -/
theorem get?_of_earlier {rule previous : UnreadQuery} {count : Int}
    (hget : held.earlier.get? rule = some (previous, count)) :
    held.counted.get? previous = some count ∧ previous.counting = rule := by
  have hlast := Dict.get?_foldl_set_last (fun entry : UnreadQuery × Int => entry.1.counting) id
    held.counted.entries Dict.empty rule
  rw [Dict.get?_empty, Option.or_none, Option.map_id] at hlast
  obtain ⟨hmem, hrule⟩ := List.mem_filter.mp (List.mem_of_getLast? (hlast.symm.trans hget))
  exact ⟨Dict.mem_entries.mp hmem, of_decide_eq_true hrule⟩

theorem recount_eq (hexact : held.Exact bus) (hsteady : Steady held selection)
    {query : UnreadQuery} (hquery : query ∈ selection.queries) :
    held.recount bus query = .ok (query.countUnread bus 0 bus.revision : Int) := by
  unfold recount
  rcases hexact with rfl | ⟨earlier, through, hle, hheld⟩
  · rfl
  have hcount : ∀ {previous : UnreadQuery} {count : Int}, held.counted.get? previous = some count →
        previous ∈ earlier.queries ∧ count = previous.countUnread bus 0 through := by
    intro previous count hget
    rw [hheld, displayUnread, Dict.get?_tabulate] at hget
    split at hget
    next hmem => exact ⟨hmem, (Option.some.inj hget).symm⟩
    · cases hget
  have hthrough : held.through = some through := by rw [hheld]; rfl
  cases hkept : held.counted.get? query with
  | some =>
    obtain ⟨-, rfl⟩ := hcount hkept
    exact congrArg Except.ok (add_appended query hthrough hle)
  | none =>
    cases hprevious : held.earlier.get? query.counting with
    | none => rfl
    | some entry =>
      obtain ⟨previous, count⟩ := entry
      obtain ⟨hget, hcounting⟩ := get?_of_earlier hprevious
      obtain ⟨hmem, rfl⟩ := hcount hget
      have hcorrectable := hsteady query hquery (Dict.get?_eq_none_iff.mp hkept) previous
        (Dict.mem_of_get? hget) hcounting
      rcases UnreadQuery.moved_cases (hcorrectable.imp_right And.left) with
        hmoved | ⟨hwhole, targets, floor, hmoved, htargets, hfloor⟩
      · simp only [hmoved]
        rfl
      · rw [hwhole, or_iff_right Bool.false_ne_true] at hcorrectable
        have hexchange := UnreadQuery.countUnread_moved hcorrectable hwhole hfloor bus hmem hquery
          hcounting targets htargets bus.revision
        have hadd := add_appended previous hthrough hle
        simp only [hmoved]
        refine congrArg Except.ok ?_
        omega

/-- A steady refresh gives the full count of its selection. -/
theorem advanced_eq (hexact : held.Exact bus) (hsteady : Steady held selection) :
    held.advanced bus selection = .ok (displayUnread bus selection.queries bus.revision) := by
  unfold advanced
  split
  next hunchanged =>
    obtain ⟨hthrough, hkeys⟩ := hunchanged
    rcases hexact with rfl | ⟨earlier, through, -, rfl⟩
    · cases hthrough
    · obtain rfl : through = bus.revision := Option.some.inj hthrough
      rw [← hkeys]
      simp only [displayUnread, Dict.tabulate_keys]
  · rw [Dict.foldlM_set_tabulate selection.queries _ fun query hquery =>
      recount_eq hexact hsteady hquery]
    rfl

end DisplayUnread

/-! ### Runs -/

inductive UnreadEvent where
  | append (draft : Message)
  | advance
  | refresh (selection : Selection)

structure UnreadWorld where
  bus : ReadBus
  held : DisplayUnread

namespace UnreadWorld

def step (world : UnreadWorld) : UnreadEvent → Except UnreadError UnreadWorld
  | .append draft => .ok { world with bus := world.bus.append draft }
  | .advance => .ok { world with bus := world.bus.advance }
  | .refresh selection => do
      let held ← world.held.advanced world.bus selection
      pure { world with held }

def after (world : UnreadWorld) (events : List UnreadEvent) : Except UnreadError UnreadWorld :=
  events.foldlM step world

def SteadyAt (world : UnreadWorld) : UnreadEvent → Prop
  | .refresh selection => Steady world.held selection
  | _ => True

def SteadyRun : UnreadWorld → List UnreadEvent → Prop
  | _, [] => True
  | world, event :: events =>
    world.SteadyAt event ∧ ∀ next ∈ (world.step event).toOption, SteadyRun next events

instance (world : UnreadWorld) : (event : UnreadEvent) → Decidable (world.SteadyAt event)
  | .append _ => inferInstanceAs (Decidable True)
  | .advance => inferInstanceAs (Decidable True)
  | .refresh selection => inferInstanceAs (Decidable (Steady world.held selection))

instance decidableSteadyRun : (world : UnreadWorld) → (events : List UnreadEvent) →
    Decidable (world.SteadyRun events)
  | _, [] => inferInstanceAs (Decidable True)
  | world, event :: events =>
    match hstep : world.step event with
    | .ok next =>
      have := decidableSteadyRun next events
      decidable_of_iff (world.SteadyAt event ∧ next.SteadyRun events)
        (by simp [SteadyRun, hstep, Except.toOption])
    | .error _ =>
      decidable_of_iff (world.SteadyAt event) (by simp [SteadyRun, hstep, Except.toOption])

theorem step_exact {world : UnreadWorld} (hexact : world.held.Exact world.bus)
    {event : UnreadEvent} (hsteady : world.SteadyAt event) :
    ∃ next, world.step event = .ok next ∧ next.held.Exact next.bus ∧
      ∀ selection, event = .refresh selection →
        next.held = displayUnread next.bus selection.queries next.bus.revision := by
  cases event with
  | append draft => exact ⟨_, rfl, hexact.append draft, nofun⟩
  | advance => exact ⟨_, rfl, hexact.advance, nofun⟩
  | refresh selection =>
    refine ⟨{ world with held := displayUnread world.bus selection.queries world.bus.revision },
      ?_, .inr ⟨selection, _, le_rfl, rfl⟩, ?_⟩
    · rw [step, DisplayUnread.advanced_eq hexact hsteady]
      rfl
    · rintro selection ⟨⟩
      rfl

theorem run_exact (events : List UnreadEvent) {world : UnreadWorld}
    (hexact : world.held.Exact world.bus) (hsteady : world.SteadyRun events) :
    ∃ last, world.after events = .ok last ∧ last.held.Exact last.bus ∧
      ∀ selection, events.getLast? = some (.refresh selection) →
        last.held = displayUnread last.bus selection.queries last.bus.revision := by
  induction events generalizing world with
  | nil => exact ⟨world, rfl, hexact, nofun⟩
  | cons event events ih =>
    obtain ⟨hat, hrest⟩ := hsteady
    obtain ⟨next, hstep, hnext, hcounted⟩ := step_exact hexact hat
    have hrest := hrest next (by rw [hstep]; rfl)
    obtain ⟨last, hrun, hlast, hfinal⟩ := ih hnext hrest
    refine ⟨last, ?_, hlast, fun selection hgets => ?_⟩
    · rw [after, List.foldlM_cons, hstep]
      exact hrun
    · cases events with
      | nil =>
        obtain rfl : next = last := Except.ok.inj hrun
        exact hcounted selection (Option.some.inj hgets)
      | cons => exact hfinal selection (by rwa [List.getLast?_cons_cons] at hgets)

end UnreadWorld

/-- After a refresh of a steady run the counter is the full count of its selection. -/
theorem unread_counter_exact (bus : ReadBus) (events : List UnreadEvent) (selection : Selection)
    (hsteady : UnreadWorld.SteadyRun ⟨bus, .empty⟩ (events ++ [.refresh selection])) :
    ∃ world, UnreadWorld.after ⟨bus, .empty⟩ (events ++ [.refresh selection]) = .ok world ∧
      world.held = displayUnread world.bus selection.queries world.bus.revision := by
  obtain ⟨world, hrun, -, hfinal⟩ := UnreadWorld.run_exact (events ++ [.refresh selection])
    (.inl rfl) hsteady
  exact ⟨world, hrun, hfinal selection (by rw [List.getLast?_append]; rfl)⟩

def zedThread : Thread := ⟨{ sampleFields with name := "zed" }, by decide⟩

def renamedRegistry (thread : Thread) (former : Name) : RegistryPresence where
  threads := (Dict.empty.set thread.name thread).set "boss"
    ⟨{ sampleFields with name := "boss", createdAt := .recorded 2 }, by decide⟩
  statuses := Dict.empty
  lastSeen := Dict.empty
  aliases := Dict.empty.set former thread.name

/-- The complete wire, with a cursor on one direct conversation. -/
def directSelection (registry : RegistryPresence) (members : List Incarnation)
    (cursor : ConversationCursor)
    (hnames : ∀ member ∈ members, ∀ name ∈ registry.namesFor member.name, ThreadName name) :
    Selection where
  seen := ⟨Dict.empty.set (.direct (members.map Incarnation.key)) (.direct members, cursor)⟩
  scopes := [.allTargets "#any"]
  viewerNames := ["boss"]
  registry := registry
  filed := by rintro entry (_ | ⟨_, ⟨⟩⟩); rfl
  channels := by rintro entry (_ | ⟨_, ⟨⟩⟩) target ⟨⟩
  participants := by rintro entry (_ | ⟨_, ⟨⟩⟩) members ⟨⟩; exact hnames
  targets := by rintro scope (_ | ⟨_, ⟨⟩⟩) target ⟨⟩

def readFirst : ConversationCursor := ConversationCursor.empty.through 1

def readFirstAndThird : ConversationCursor := ⟨1, [3], by decide, by decide⟩

def renamedSelection (cursor : ConversationCursor) : Selection :=
  directSelection (renamedRegistry zedThread "alpha") [⟨"boss", some 2⟩, ⟨"zed", some 1⟩] cursor
    (by decide)

def restoredSelection (cursor : ConversationCursor) : Selection :=
  directSelection (renamedRegistry sampleThread "zed") [⟨"alpha", some 1⟩, ⟨"boss", some 2⟩] cursor
    (by decide)

def unreadSelection : Selection where
  seen := ⟨Dict.empty⟩
  scopes := [.allTargets "#any"]
  viewerNames := ["boss"]
  registry := renamedRegistry zedThread "alpha"
  filed := nofun
  channels := nofun
  participants := nofun
  targets := by rintro scope (_ | ⟨_, ⟨⟩⟩) target ⟨⟩

def selfSelection (cursor : ConversationCursor) : Selection :=
  directSelection (renamedRegistry zedThread "alpha") [⟨"zed", some 1⟩] cursor (by decide)

def directMessage (sender target : Name) (haddressed : target ≠ "") : UnreadEvent :=
  .append ⟨0, sender, target, [], true, true, haddressed⟩

def sampleEvents : List UnreadEvent :=
  [directMessage "zed" "boss" (by decide), directMessage "zed" "boss" (by decide),
    .refresh (renamedSelection readFirst), directMessage "alpha" "boss" (by decide)]

/-- A read of the newest row above an unchanged prefix is corrected. -/
theorem unread_counter_exact_moved :
    UnreadWorld.SteadyRun ⟨.empty (1, 1), .empty⟩
      (sampleEvents ++ [.refresh (renamedSelection readFirstAndThird)]) ∧
    ∃ world, UnreadWorld.after ⟨.empty (1, 1), .empty⟩
        (sampleEvents ++ [.refresh (renamedSelection readFirstAndThird)]) = .ok world ∧
      world.held = displayUnread world.bus (renamedSelection readFirstAndThird).queries
        world.bus.revision := by
  have hsteady : UnreadWorld.SteadyRun ⟨.empty (1, 1), .empty⟩
      (sampleEvents ++ [.refresh (renamedSelection readFirstAndThird)]) := by
    decide +kernel
  exact ⟨hsteady, unread_counter_exact _ _ _ hsteady⟩

/-- A thread renamed back spells the same cursor rows in another order, and the
refresh takes the minimum of no changed pairs. -/
theorem reordered_rows_raise :
    (UnreadWorld.after ⟨.empty (1, 1), .empty⟩
      [directMessage "zed" "boss" (by decide), .refresh (renamedSelection readFirst),
        .refresh (restoredSelection readFirst)]).map UnreadWorld.held =
      .error .emptyMinimum := by
  decide +kernel

-- The pairs of a self-addressed conversation are spelled twice, so a full count takes its
-- unread rows twice once it has a cursor; the correction leaves those below its floor alone.
example :
    (UnreadWorld.after ⟨.empty (1, 1), .empty⟩
      [directMessage "zed" "zed" (by decide), directMessage "zed" "zed" (by decide),
        directMessage "zed" "zed" (by decide), .refresh unreadSelection,
        .refresh (selfSelection ⟨0, [3], by decide, by decide⟩)]).map (fun world =>
      (world.held.counts.get? "#any", (displayUnread world.bus
        (selfSelection ⟨0, [3], by decide, by decide⟩).queries world.bus.revision).counts.get?
          "#any")) = .ok (some 2, some 4) := by
  decide +kernel

end AgentComms.Reads
