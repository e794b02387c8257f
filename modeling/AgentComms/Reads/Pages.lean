import Mathlib.Data.PNat.Notation
import AgentComms.Library.Paging
import AgentComms.Reads.Scopes

/-!
# Paging a display scope

A page is one query in the traversal's order, for one row more than its limit, and one probe
in the other direction. A traversal's cursor cuts the matching rows into those `ahead` of
it, in reading order, and those `behind`; `readOpened_at` says which page is read there and
where its continuation stands, and a whole traversal is an induction over its limits.
-/

namespace AgentComms.Reads

open Library Registry

structure BusRow (κ : Type) where
  message : Message
  kind : κ

def BusRow.seq {κ : Type} (row : BusRow κ) : Nat := row.message.seq

open BusRow (seq)

structure BusSource (κ : Type) where
  rows : List (BusRow κ)
  ordered : rows.Pairwise (seq · < seq ·)
  positive : ∀ row ∈ rows, 0 < row.seq

def BusSource.lastSeq {κ : Type} (source : BusSource κ) : Nat :=
  (source.rows.getLast?.map seq).getD 0

theorem BusSource.seq_bounds {κ : Type} (source : BusSource κ) {row : BusRow κ}
    (hmem : row ∈ source.rows) : 0 < row.seq ∧ row.seq < source.lastSeq + 1 := by
  refine ⟨source.positive row hmem, ?_⟩
  cases hlast : source.rows.getLast? with
  | none =>
    rw [List.getLast?_eq_none_iff.mp hlast] at hmem
    cases hmem
  | some =>
    rw [lastSeq, hlast]
    exact Nat.lt_succ_of_le (key_le_getLast source.ordered hmem hlast)

inductive PageCursor where
  | newest
  | live (sequence : Nat)

namespace PageCursor

def upper : PageCursor → Option Nat
  | newest => none
  | live sequence => some sequence

def lower : PageCursor → Nat
  | newest => 0
  | live sequence => sequence

end PageCursor

inductive PageTraversal where
  | older (cursor : PageCursor)
  | newer (cursor : PageCursor)

structure MessagePage (κ : Type) where
  messages : List (BusRow κ)
  hasOlder : Bool
  hasNewer : Bool

def MessagePage.make {κ : Type} (messages : List (BusRow κ)) (hasOlder hasNewer : Bool) :
    Checked (MessagePage κ) := do
  require (messages.Pairwise (seq · < seq ·))
    (.valueError "Message pages must contain unique messages in source order.")
  pure ⟨messages, hasOlder, hasNewer⟩

structure PageRequest (κ : Type) where
  source : BusSource κ
  scope : DisplayScope
  kinds : List κ

namespace PageRequest

variable {κ : Type} [DecidableEq κ] (request : PageRequest κ)

def ofKind (row : BusRow κ) : Prop := request.kinds = [] ∨ row.kind ∈ request.kinds

instance (row : BusRow κ) : Decidable (request.ofKind row) := inferInstanceAs (Decidable (_ ∨ _))

def records (lower : Int) (upper : Option Nat) (descending : Bool) (limit : Nat) :
    List (BusRow κ) :=
  let upper := upper.getD (request.source.lastSeq + 1)
  let rows := request.source.rows.filter fun row => request.scope.condition row.message ∧
    lower < row.seq ∧ row.seq < upper ∧ request.ofKind row
  (if descending then rows.reverse else rows).take limit

def selected : List (BusRow κ) :=
  request.source.rows.filter fun row =>
    request.scope.includes row.message = .ok true ∧ request.ofKind row

def matching : List (BusRow κ) :=
  request.source.rows.filter fun row => request.scope.condition row.message ∧ request.ofKind row

end PageRequest

namespace PageTraversal

variable {κ : Type} [DecidableEq κ] (request : PageRequest κ)

def records : PageTraversal → Nat → List (BusRow κ)
  | older cursor, limit => request.records 0 cursor.upper true limit
  | newer cursor, limit => request.records cursor.lower none false limit

def opposite : PageTraversal → Nat → List (BusRow κ)
  | older .newest, _ => []
  | older (.live sequence), limit => request.records ((sequence : Int) - 1) none false limit
  | newer cursor, limit => request.records 0 (some (cursor.lower + 1)) true limit

def append {α : Type} : PageTraversal → List α → α → List α
  | older _, rows, row => row :: rows
  | newer _, rows, row => rows ++ [row]

/-- The rows that `PageWindow.take` fits into a window, and whether one was left. -/
def fill {α : Type} (traversal : PageTraversal) (limit : Nat) : List α → List α → List α × Bool
  | rows, [] => (rows, false)
  | rows, row :: rest =>
    if rows.length + 1 ≤ limit then fill traversal limit (traversal.append rows row) rest
    else (rows, true)

def result : PageTraversal → List (BusRow κ) → Bool → Bool → Checked (MessagePage κ)
  | older _, rows, more, opposite => MessagePage.make rows more opposite
  | newer _, rows, more, opposite => MessagePage.make rows opposite more

/-- A page's limit is positive. -/
def readOpened (traversal : PageTraversal) (limit : ℕ+) : Checked (MessagePage κ) :=
  let opposite := !(traversal.opposite request 1).isEmpty
  let (rows, more) := traversal.fill limit [] (traversal.records request (limit + 1))
  traversal.result rows more opposite

def continuation : PageTraversal → MessagePage κ → Option PageTraversal
  | older _, page => do
    let oldest ← page.messages.head?
    if page.hasOlder then some (older (.live oldest.seq)) else none
  | newer _, page => do
    let newest ← page.messages.getLast?
    if page.hasNewer then some (newer (.live newest.seq)) else none

/-- Page after page under the given limits until one has no continuation, with the
traversal that is left. -/
def follow : List ℕ+ → PageTraversal → Checked (List (MessagePage κ) × Option PageTraversal)
  | [], traversal => pure ([], some traversal)
  | limit :: limits, traversal => do
    let page ← traversal.readOpened request limit
    match traversal.continuation page with
    | none => pure ([page], none)
    | some next => do
      let (pages, left) ← follow limits next
      pure (page :: pages, left)

def inOrder {α : Type} : PageTraversal → List α → List α
  | older _, rows => rows.reverse
  | newer _, rows => rows

/-- The page is a stretch of the rows and its flags say what is beside it. -/
def Exact (rows before after : List (BusRow κ)) (page : MessagePage κ) : Prop :=
  rows = before ++ page.messages ++ after ∧ page.hasOlder = !before.isEmpty ∧
    page.hasNewer = !after.isEmpty

/-- The cursor cuts the rows into those ahead of the traversal, in reading order, and those
behind it, the nearest first. -/
def At (ahead behind : List (BusRow κ)) : PageTraversal → Prop
  | older cursor => Cut seq request.matching
      (cursor.upper.getD (request.source.lastSeq + 1)) ahead.reverse behind
  | newer cursor => Cut seq request.matching (cursor.lower + 1) behind.reverse ahead

section Page

variable {request} {ahead behind before after : List (BusRow κ)} {traversal : PageTraversal}

theorem matching_ordered (request : PageRequest κ) : request.matching.Pairwise (seq · < seq ·) :=
  request.source.ordered.filter _

theorem Exact.ordered {page : MessagePage κ} (hexact : Exact request.matching before after page) :
    page.messages.Pairwise (seq · < seq ·) := by
  have hordered := matching_ordered request
  rw [hexact.1] at hordered
  exact (List.pairwise_append.mp (List.pairwise_append.mp hordered).1).2.1

theorem Exact.make_ok {messages : List (BusRow κ)} {hasOlder hasNewer : Bool}
    (hexact : Exact request.matching before after ⟨messages, hasOlder, hasNewer⟩) :
    MessagePage.make messages hasOlder hasNewer = .ok ⟨messages, hasOlder, hasNewer⟩ := by
  simp [MessagePage.make, require, hexact.ordered]

/-- A query reads the matching rows inside its bounds. -/
theorem records_eq {lower : Int} {upper : Option Nat} {keep : BusRow κ → Prop}
    [DecidablePred keep] {kept : List (BusRow κ)}
    (hkept : request.matching.filter (fun row => keep row) = kept)
    (hkeep : ∀ row, 0 < row.seq ∧ row.seq < request.source.lastSeq + 1 →
      (lower < row.seq ∧ row.seq < upper.getD (request.source.lastSeq + 1) ↔ keep row))
    (descending : Bool) (limit : Nat) : request.records lower upper descending limit =
      (if descending then kept.reverse else kept).take limit := by
  have hinside : (request.source.rows.filter fun row => request.scope.condition row.message ∧
      lower < row.seq ∧ row.seq < upper.getD (request.source.lastSeq + 1) ∧
      request.ofKind row) = kept := by
    rw [← hkept, PageRequest.matching, List.filter_filter]
    refine List.filter_congr fun row hrow => ?_
    rw [← Bool.decide_and, decide_eq_decide]
    have hiff := hkeep row (request.source.seq_bounds hrow)
    tauto
  simp only [PageRequest.records, hinside]

theorem records_at (hat : traversal.At request ahead behind) (limit : Nat) :
    traversal.records request limit = ahead.take limit := by
  cases traversal with
  | older =>
    rw [records, records_eq hat.front_eq fun row hrow => by omega, if_pos rfl, List.reverse_reverse]
  | newer =>
    exact records_eq hat.back_eq (fun row hrow => by simp only [Option.getD_none]; omega)
      false limit

theorem opposite_at (hat : traversal.At request ahead behind) :
    (traversal.opposite request 1).isEmpty = behind.isEmpty := by
  have hrest : (behind.take 1).isEmpty = behind.isEmpty := by cases behind <;> rfl
  match traversal, hat with
  | older .newest, hat =>
    -- nothing is after the last sequence
    cases behind with
    | nil => rfl
    | cons row =>
      have hmem : row ∈ request.matching := by simp [hat.eq]
      have hafter := hat.back row List.mem_cons_self
      exact absurd (request.source.seq_bounds (List.mem_of_mem_filter hmem)).2 (Nat.not_lt.mpr hafter)
  | older (.live sequence), hat =>
    rw [opposite, records_eq hat.back_eq, ← hrest]
    · rfl
    · intro row hrow
      simp only [PageCursor.upper, Option.getD_none, Option.getD_some]
      omega
  | newer cursor, hat =>
    rw [opposite, records_eq hat.front_eq, if_pos rfl, List.reverse_reverse, hrest]
    intro row hrow
    simp only [Option.getD_some]
    omega

theorem fill_eq {α : Type} (traversal : PageTraversal) (limit : Nat) (rows taken : List α)
    (htaken : taken.length ≤ limit) : traversal.fill limit (traversal.inOrder taken) rows =
      (traversal.inOrder ((taken ++ rows).take limit), decide (limit < (taken ++ rows).length)) := by
  induction rows generalizing taken with
  | nil => simp [fill, List.take_of_length_le htaken, htaken]
  | cons row rest ih =>
    have happend : traversal.append (traversal.inOrder taken) row =
        traversal.inOrder (taken ++ [row]) := by
      cases traversal <;> simp [append, inOrder]
    have hlength : (traversal.inOrder taken).length = taken.length := by
      cases traversal <;> simp [inOrder]
    rw [fill, hlength, happend]
    split
    case isTrue hfits =>
      rw [ih (taken ++ [row]) (by simpa using hfits), List.append_assoc]
      rfl
    case isFalse =>
      have hsame : taken.length = limit := by omega
      simp [← hsame]

theorem readOpened_eq (hat : traversal.At request ahead behind) (limit : ℕ+) :
    traversal.readOpened request limit = traversal.result (traversal.inOrder (ahead.take limit))
      (!(ahead.drop limit).isEmpty) (!behind.isEmpty) := by
  have hfill := traversal.fill_eq limit (ahead.take (limit + 1)) [] (Nat.zero_le _)
  have hempty : traversal.inOrder ([] : List (BusRow κ)) = [] := by cases traversal <;> rfl
  have hmore : decide ((limit : Nat) < min ((limit : Nat) + 1) ahead.length) =
      !(ahead.drop limit).isEmpty := by
    rw [Bool.eq_iff_iff]
    simp
  rw [hempty, List.nil_append, List.take_take, List.length_take, hmore] at hfill
  simp only [readOpened, records_at hat, opposite_at hat, hfill, min_eq_left, Nat.le_succ]

def Continues (request : PageRequest κ) (ahead behind : List (BusRow κ)) (limit : Nat)
    (traversal : PageTraversal) : Option PageTraversal → Prop
  | none => ahead.drop limit = []
  | some next => ahead.drop limit ≠ [] ∧
      (∀ {α : Type} (items : List α), next.inOrder items = traversal.inOrder items) ∧
      next.At request (ahead.drop limit) ((ahead.take limit).reverse ++ behind)

theorem readOpened_at (hat : traversal.At request ahead behind) (limit : ℕ+) :
    ∃ page before after, traversal.readOpened request limit = .ok page ∧
      page.messages = traversal.inOrder (ahead.take limit) ∧
      Exact request.matching before after page ∧
      traversal.Continues request ahead behind limit (traversal.continuation page) := by
  have hordered := matching_ordered request
  have hahead := List.take_append_drop limit ahead
  -- a page that leaves rows has a last one
  have hlast : ahead.drop limit ≠ [] → ∃ init last, ahead.take limit = init ++ [last] := by
    intro hmore
    rcases List.eq_nil_or_concat (ahead.take limit) with hnil | hconcat
    · rcases List.take_eq_nil_iff.mp hnil with hzero | rfl
      · exact absurd hzero limit.ne_zero
      · exact absurd List.drop_nil hmore
    · simpa using hconcat
  rw [readOpened_eq hat]
  cases traversal with
  | older =>
    have hrows : request.matching =
        (ahead.drop limit).reverse ++ (ahead.take limit).reverse ++ behind := by
      rw [hat.eq, ← List.reverse_append, hahead]
    have hexact : Exact request.matching (ahead.drop limit).reverse behind
        ⟨(ahead.take limit).reverse, !(ahead.drop limit).isEmpty, !behind.isEmpty⟩ :=
      ⟨hrows, by rw [List.isEmpty_reverse], rfl⟩
    refine ⟨_, _, _, hexact.make_ok, rfl, hexact, ?_⟩
    by_cases hmore : ahead.drop limit = []
    · simp [continuation, hmore, Continues]
    · obtain ⟨init, last, htaken⟩ := hlast hmore
      rw [htaken, List.reverse_concat, List.append_assoc] at hrows
      simpa [continuation, htaken, hmore, Continues, inOrder, At, PageCursor.upper]
        using (cut_of_ordered hordered hrows).1
  | newer =>
    have hrows : request.matching = behind.reverse ++ ahead.take limit ++ ahead.drop limit := by
      rw [hat.eq, List.append_assoc, hahead]
    have hexact : Exact request.matching behind.reverse (ahead.drop limit)
        ⟨ahead.take limit, !behind.isEmpty, !(ahead.drop limit).isEmpty⟩ :=
      ⟨hrows, by rw [List.isEmpty_reverse], rfl⟩
    refine ⟨_, _, _, hexact.make_ok, rfl, hexact, ?_⟩
    by_cases hmore : ahead.drop limit = []
    · simp [continuation, hmore, Continues]
    · obtain ⟨init, last, htaken⟩ := hlast hmore
      rw [htaken, ← List.append_assoc, List.append_assoc _ [last]] at hrows
      simpa [continuation, htaken, hmore, Continues, inOrder, At, PageCursor.lower]
        using (cut_of_ordered hordered hrows).2

/-- A traversal reads the rows ahead of it, page by page. -/
theorem follow_at (limits : List ℕ+) (hat : traversal.At request ahead behind) :
    ∃ pages left, follow request limits traversal = .ok (pages, left) ∧
      (ahead.length < limits.length → left = none) ∧
      (left = none → (traversal.inOrder (pages.map (·.messages))).flatten =
        traversal.inOrder ahead) ∧
      ∀ page ∈ pages, ∃ before after, Exact request.matching before after page := by
  induction limits generalizing traversal ahead behind with
  | nil => exact ⟨[], some traversal, rfl, by simp, by simp, by simp⟩
  | cons limit limits ih =>
    obtain ⟨page, before, after, hread, hmessages, hexact, hcontinues⟩ := readOpened_at hat limit
    have hahead := List.take_append_drop limit ahead
    cases hnext : traversal.continuation page with
    | none =>
      rw [hnext] at hcontinues
      rw [show ahead.drop limit = [] from hcontinues, List.append_nil] at hahead
      refine ⟨[page], none, by simp [follow, hread, hnext, bind, Except.bind, pure, Except.pure],
        fun _ => rfl, fun _ => ?_, by simpa using ⟨before, after, hexact⟩⟩
      rw [hahead] at hmessages
      cases traversal <;> simpa [inOrder] using hmessages
    | some =>
      rw [hnext] at hcontinues
      obtain ⟨hmore, hsame, hat'⟩ := hcontinues
      obtain ⟨pages, left, hfollow, hends, hlists, hpages⟩ := ih hat'
      refine ⟨page :: pages, left, by
        simp [follow, hread, hnext, hfollow, bind, Except.bind, pure, Except.pure], ?_, ?_,
        List.forall_mem_cons.mpr ⟨⟨before, after, hexact⟩, hpages⟩⟩
      · intro hlong
        refine hends ?_
        have hpos := List.length_pos_iff.mpr hmore
        have hlimit := limit.pos
        rw [List.length_cons] at hlong
        rw [List.length_drop] at hpos ⊢
        omega
      · intro hleft
        have hrest := hlists hleft
        rw [hsame, hsame] at hrest
        cases traversal with
        | older =>
          simp only [inOrder, List.map_cons, List.reverse_cons, List.flatten_append]
            at hrest hmessages ⊢
          rw [hrest, hmessages, List.flatten_singleton, ← List.reverse_append, hahead]
        | newer =>
          simp only [inOrder, List.map_cons, List.flatten_cons] at hrest hmessages ⊢
          rw [hrest, hmessages, hahead]

end Page

end PageTraversal

open PageTraversal in
theorem pages_list_selected {κ : Type} [DecidableEq κ] (request : PageRequest κ)
    (hagree : ∀ row ∈ request.source.rows,
      request.scope.includes row.message = .ok (request.scope.condition row.message))
    (start : PageTraversal) (hstart : start = older .newest ∨ start = newer .newest)
    (limits : List ℕ+) :
    ∃ pages left, follow request limits start = .ok (pages, left) ∧
      (request.selected.length < limits.length → left = none) ∧
      (left = none → (start.inOrder (pages.map (·.messages))).flatten = request.selected) ∧
      ∀ page ∈ pages, page.messages.Pairwise (seq · < seq ·) ∧
        ∃ before after, Exact request.selected before after page ∧
          ∀ newest (limit : ℕ+), page.messages.getLast? = some newest →
            ∃ next, (newer (.live newest.seq)).readOpened request limit = .ok next ∧
              next.messages = after.take limit := by
  have hselected : request.selected = request.matching := by
    refine List.filter_congr fun row hrow => ?_
    simp [hagree row hrow]
  rw [hselected]
  have hat : start.At request (start.inOrder request.matching) [] := by
    rcases hstart with rfl | rfl
    · refine ⟨by simp [inOrder], fun row hrow => ?_, by simp⟩
      rw [inOrder, List.reverse_reverse] at hrow
      exact (request.source.seq_bounds (List.mem_of_mem_filter hrow)).2
    · refine ⟨rfl, by simp, fun row hrow => ?_⟩
      exact (request.source.seq_bounds (List.mem_of_mem_filter hrow)).1
  obtain ⟨pages, left, hfollow, hends, hlists, hpages⟩ := follow_at limits hat
  refine ⟨pages, left, hfollow, ?_, ?_, fun page hpage => ?_⟩
  · rcases hstart with rfl | rfl <;> simpa [inOrder] using hends
  · rcases hstart with rfl | rfl <;> simpa [inOrder] using hlists
  · obtain ⟨before, after, hexact⟩ := hpages page hpage
    refine ⟨hexact.ordered, before, after, hexact, fun newest limit hnewest => ?_⟩
    obtain ⟨init, hinit⟩ := List.getLast?_eq_some_iff.mp hnewest
    have hrows := hexact.1
    rw [hinit, ← List.append_assoc, List.append_assoc _ [newest]] at hrows
    have hafter : (newer (.live newest.seq)).At request after
        (before ++ init ++ [newest]).reverse := by
      rw [At, List.reverse_reverse]
      exact (cut_of_ordered (matching_ordered request) hrows).2
    obtain ⟨next, -, -, hnext, hmessages, -⟩ := readOpened_at hafter limit
    exact ⟨next, hnext, hmessages⟩

/-- Three messages of a channel under limits of two and one. -/
theorem pages_list_selected_channel :
    let message (seq : Nat) : Message := ⟨seq, "a", "#c", [], true, true, by decide⟩
    let source : BusSource Unit := ⟨[⟨message 2, ()⟩, ⟨message 3, ()⟩, ⟨message 7, ()⟩],
      by decide, by decide⟩
    ∃ pages, PageTraversal.follow ⟨source, .conversation (.channel ["#c"]), []⟩ [2, 1, 1, 1]
      (.older .newest) = .ok (pages, none) := by
  intro message source
  obtain ⟨pages, left, hfollow, hends, -⟩ := pages_list_selected
    ⟨source, .conversation (.channel ["#c"]), []⟩ (by decide) (.older .newest) (.inl rfl)
    [2, 1, 1, 1]
  exact ⟨pages, hends (by decide) ▸ hfollow⟩

end AgentComms.Reads
