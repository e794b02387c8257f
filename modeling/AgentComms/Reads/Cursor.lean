import AgentComms.Library.Bisect

/-!
# Conversation cursors

A cursor records what one reader has read of one conversation: a proved prefix
and the sequences read out of order above it. Its operations are stated here by
what they do to the set of sequences it contains.
-/

namespace AgentComms.Reads

open Library

/-- `ConversationCursor`. Its operations keep the exceptions increasing and above
the prefix; `__contains__` searches them by bisection. -/
@[ext] structure ConversationCursor where
  highWater : Nat
  exceptions : List Nat
  sorted : exceptions.Pairwise (· < ·)
  above : ∀ n ∈ exceptions, highWater < n
deriving DecidableEq

namespace ConversationCursor

def empty : ConversationCursor := ⟨0, [], List.Pairwise.nil, nofun⟩

def contains (cursor : ConversationCursor) (n : Nat) : Bool :=
  0 < n && n ≤ cursor.highWater ||
    cursor.exceptions[bisectLeft cursor.exceptions n]? = some n

instance : Membership Nat ConversationCursor := ⟨fun cursor n => cursor.contains n = true⟩

instance (cursor : ConversationCursor) (n : Nat) : Decidable (n ∈ cursor) :=
  inferInstanceAs (Decidable (cursor.contains n = true))

variable {cursor : ConversationCursor} {n : Nat}

theorem mem_iff : n ∈ cursor ↔ 0 < n ∧ n ≤ cursor.highWater ∨ n ∈ cursor.exceptions := by
  show cursor.contains n = true ↔ _
  rw [contains, Bool.or_eq_true, Bool.and_eq_true, decide_eq_true_iff, decide_eq_true_iff,
    decide_eq_true_iff, getElem?_bisectLeft cursor.sorted]

theorem pos_of_mem (hmem : n ∈ cursor) : 0 < n := by
  rcases mem_iff.mp hmem with hbelow | hexception
  · exact hbelow.1
  · exact Nat.zero_lt_of_lt (cursor.above n hexception)

@[simp] theorem not_mem_empty (n : Nat) : n ∉ empty := by
  rintro hmem
  rcases mem_iff.mp hmem with ⟨hpos, hle⟩ | hexception
  · exact absurd hle (not_le.mpr hpos)
  · cases hexception

/-! ### Union -/

def highest (cursors : List ConversationCursor) : Nat :=
  (cursors.map highWater).foldr max 0

theorem le_highest {cursors : List ConversationCursor}
    (hmem : cursor ∈ cursors) : cursor.highWater ≤ highest cursors := by
  induction cursors with
  | nil => cases hmem
  | cons first cursors ih =>
    rcases List.mem_cons.mp hmem with rfl | hmem
    · exact le_max_left _ _
    · exact (ih hmem).trans (le_max_right _ _)

theorem highest_mem (cursors : List ConversationCursor) :
    highest cursors = 0 ∨ ∃ cursor ∈ cursors, highest cursors = cursor.highWater := by
  induction cursors with
  | nil => exact .inl rfl
  | cons first cursors ih =>
    have hmax : highest (first :: cursors) = max first.highWater (highest cursors) := rfl
    rcases le_total (highest cursors) first.highWater with hle | hle
    · exact .inr ⟨first, List.mem_cons_self, hmax.trans (max_eq_left hle)⟩
    · rw [hmax, max_eq_right hle]
      rcases ih with hzero | ⟨cursor, hmem, heq⟩
      · exact .inl hzero
      · exact .inr ⟨cursor, List.mem_cons_of_mem _ hmem, heq⟩

def union (cursors : List ConversationCursor) : ConversationCursor where
  highWater := highest cursors
  exceptions := sortedSet ((cursors.flatMap exceptions).filter (highest cursors < ·))
  sorted := pairwise_sortedSet _
  above := by
    intro n hmem
    rw [mem_sortedSet, List.mem_filter] at hmem
    exact of_decide_eq_true hmem.2

@[simp] theorem mem_union {cursors : List ConversationCursor} {n : Nat} :
    n ∈ union cursors ↔ ∃ cursor ∈ cursors, n ∈ cursor := by
  have hexceptions : n ∈ (union cursors).exceptions ↔
      (∃ cursor ∈ cursors, n ∈ cursor.exceptions) ∧ highest cursors < n := by
    show n ∈ sortedSet _ ↔ _
    rw [mem_sortedSet, List.mem_filter, List.mem_flatMap, decide_eq_true_iff]
  rw [mem_iff, hexceptions]
  constructor
  · rintro (⟨hpos, hle⟩ | ⟨⟨cursor, hmem, hread⟩, -⟩)
    · rcases highest_mem cursors with hzero | ⟨cursor, hmem, heq⟩
      · have hle : n ≤ highest cursors := hle
        omega
      · exact ⟨cursor, hmem, mem_iff.mpr (.inl ⟨hpos, heq ▸ hle⟩)⟩
    · exact ⟨cursor, hmem, mem_iff.mpr (.inr hread)⟩
  · rintro ⟨cursor, hmem, hread⟩
    have hpos := pos_of_mem hread
    by_cases hle : n ≤ highest cursors
    · exact .inl ⟨hpos, hle⟩
    · rcases mem_iff.mp hread with hbelow | hexception
      · exact absurd (hbelow.2.trans (le_highest hmem)) hle
      · exact .inr ⟨⟨cursor, hmem, hexception⟩, not_le.mp hle⟩

/-! ### A longer prefix -/

def through (cursor : ConversationCursor) (n : Nat) : ConversationCursor where
  highWater := max n cursor.highWater
  exceptions := cursor.exceptions.drop (bisectRight cursor.exceptions (max n cursor.highWater))
  sorted := cursor.sorted.sublist (List.drop_sublist _ _)
  above := fun _ hmem => ((mem_drop_bisectRight cursor.sorted _ _).mp hmem).2

@[simp] theorem mem_through {bound : Nat} :
    n ∈ cursor.through bound ↔ 0 < n ∧ n ≤ bound ∨ n ∈ cursor := by
  have hexceptions : n ∈ (cursor.through bound).exceptions ↔
      n ∈ cursor.exceptions ∧ max bound cursor.highWater < n :=
    mem_drop_bisectRight cursor.sorted _ _
  have habove := cursor.above n
  rw [mem_iff, mem_iff, hexceptions]
  show 0 < n ∧ n ≤ max bound cursor.highWater ∨ _ ↔ _
  by_cases hmem : n ∈ cursor.exceptions
  · have hlt := habove hmem
    simp only [hmem, true_and, or_true, iff_true]
    omega
  · simp only [hmem, false_and, or_false]
    omega

/-! ### Out-of-order reads -/

def insertRead (highWater : Nat) (exceptions : List Nat) (n : Nat) : List Nat :=
  if highWater < n ∧ exceptions[bisectLeft exceptions n]? ≠ some n then
    exceptions.insertIdx (bisectLeft exceptions n) n
  else exceptions

def absorb : Nat → List Nat → Nat × List Nat
  | highWater, [] => (highWater, [])
  | highWater, n :: exceptions =>
    if n = highWater + 1 then absorb (highWater + 1) exceptions
    else (highWater, n :: exceptions)

variable {exceptions : List Nat}

theorem insertRead_spec {highWater : Nat}
    (hsorted : exceptions.Pairwise (· < ·)) (habove : ∀ m ∈ exceptions, highWater < m) (n : Nat) :
    (insertRead highWater exceptions n).Pairwise (· < ·) ∧
      (∀ m ∈ insertRead highWater exceptions n, highWater < m) ∧
      ∀ m, m ∈ insertRead highWater exceptions n ↔ m ∈ exceptions ∨ highWater < m ∧ m = n := by
  have hfound := getElem?_bisectLeft hsorted n
  unfold insertRead
  split
  next hnew =>
    have hnot : n ∉ exceptions := fun hmem => hnew.2 (hfound.mpr hmem)
    have hmem := mem_insertIdx_bisectLeft exceptions n
    refine ⟨pairwise_insertIdx_bisectLeft hsorted hnot, fun m hm => ?_, fun m => ?_⟩
    · rcases (hmem m).mp hm with rfl | hm
      · exact hnew.1
      · exact habove m hm
    · rw [hmem m, or_comm]
      refine or_congr_right ⟨fun heq => ⟨heq ▸ hnew.1, heq⟩, And.right⟩
  next hold =>
    refine ⟨hsorted, habove, fun m => ⟨.inl, ?_⟩⟩
    rintro (hm | ⟨hlt, rfl⟩)
    · exact hm
    · by_contra hnot
      exact hold ⟨hlt, fun hpresent => hnot (hfound.mp hpresent)⟩

/-- The insertion loop adds the sequences above the prefix and nothing else. -/
theorem insertReads_spec {highWater : Nat} (sequences : List Nat)
    (hsorted : exceptions.Pairwise (· < ·)) (habove : ∀ m ∈ exceptions, highWater < m) :
    (sequences.foldl (insertRead highWater) exceptions).Pairwise (· < ·) ∧
      (∀ m ∈ sequences.foldl (insertRead highWater) exceptions, highWater < m) ∧
      ∀ m, m ∈ sequences.foldl (insertRead highWater) exceptions ↔
        m ∈ exceptions ∨ highWater < m ∧ m ∈ sequences := by
  induction sequences generalizing exceptions with
  | nil => exact ⟨hsorted, habove, by simp⟩
  | cons n sequences ih =>
    obtain ⟨hsorted', habove', hmem⟩ := insertRead_spec hsorted habove n
    obtain ⟨hsorted'', habove'', hmem'⟩ := ih hsorted' habove'
    refine ⟨hsorted'', habove'', fun m => ?_⟩
    rw [List.foldl_cons, hmem', hmem, List.mem_cons]
    tauto

/-- Absorbing keeps the order and what is read. -/
theorem absorb_spec {highWater : Nat}
    (hsorted : exceptions.Pairwise (· < ·)) (habove : ∀ m ∈ exceptions, highWater < m) :
    (absorb highWater exceptions).2.Pairwise (· < ·) ∧
      (∀ m ∈ (absorb highWater exceptions).2, (absorb highWater exceptions).1 < m) ∧
      ∀ m, m ≤ (absorb highWater exceptions).1 ∨ m ∈ (absorb highWater exceptions).2 ↔
        m ≤ highWater ∨ m ∈ exceptions := by
  induction exceptions generalizing highWater with
  | nil => exact ⟨hsorted, habove, fun m => Iff.rfl⟩
  | cons n exceptions ih =>
    rw [List.pairwise_cons] at hsorted
    unfold absorb
    split
    next hnext =>
      have habove' : ∀ m ∈ exceptions, highWater + 1 < m := fun m hm => hnext ▸ hsorted.1 m hm
      obtain ⟨hsorted', habove'', hread⟩ := ih hsorted.2 habove'
      refine ⟨hsorted', habove'', fun m => ?_⟩
      rw [hread, List.mem_cons, hnext, ← or_assoc]
      exact or_congr_left (by omega)
    · exact ⟨List.pairwise_cons.mpr hsorted, habove, fun m => Iff.rfl⟩

def add (cursor : ConversationCursor) (sequences : List Nat) : ConversationCursor :=
  let exceptions := sequences.foldl (insertRead cursor.highWater) cursor.exceptions
  have hinserted := insertReads_spec sequences cursor.sorted cursor.above
  have habsorbed := absorb_spec hinserted.1 hinserted.2.1
  ⟨(absorb cursor.highWater exceptions).1, (absorb cursor.highWater exceptions).2,
    habsorbed.1, habsorbed.2.1⟩

@[simp] theorem mem_add {sequences : List Nat} :
    n ∈ cursor.add sequences ↔ n ∈ cursor ∨ 0 < n ∧ n ∈ sequences := by
  obtain ⟨hsorted, habove, hmem⟩ := insertReads_spec sequences cursor.sorted cursor.above
  obtain ⟨-, -, hread⟩ := absorb_spec hsorted habove
  have hread := hread n
  rw [hmem n] at hread
  have hexceptions : n ∈ (cursor.add sequences).exceptions → 0 < n := fun h =>
    Nat.zero_lt_of_lt ((cursor.add sequences).above n h)
  have hcursor : n ∈ cursor.exceptions → 0 < n := fun h =>
    Nat.zero_lt_of_lt (cursor.above n h)
  rw [mem_iff, mem_iff]
  have hsplit : n ≤ (cursor.add sequences).highWater ∨ n ∈ (cursor.add sequences).exceptions ↔
      n ≤ cursor.highWater ∨ n ∈ cursor.exceptions ∨ cursor.highWater < n ∧ n ∈ sequences := hread
  by_cases hpos : 0 < n
  · simp only [hpos, true_and]
    rw [hsplit]
    by_cases hle : n ≤ cursor.highWater
    · simp [hle]
    · simp [hle, not_le.mp hle]
  · simp only [hpos, false_and, false_or, or_false]
    exact ⟨fun h => absurd (hexceptions h) hpos, fun h => absurd (hcursor h) hpos⟩

/-! ### Comparison -/

def readByOne (cursor other : ConversationCursor) : List Nat :=
  cursor.exceptions.filter (· ∉ other.exceptions) ++
    other.exceptions.filter (· ∉ cursor.exceptions)

def agreesThrough (cursor other : ConversationCursor) : Nat :=
  if cursor.highWater ≠ other.highWater then min cursor.highWater other.highWater
  else ((cursor.readByOne other).min?).getD (cursor.highWater + 1) - 1

theorem mem_iff_of_le (hle : n ≤ cursor.highWater) : n ∈ cursor ↔ 0 < n := by
  refine ⟨pos_of_mem, fun hpos => mem_iff.mpr (.inl ⟨hpos, hle⟩)⟩

/-- Two cursors read alike up to the sequence they agree through. -/
theorem mem_iff_of_le_agreesThrough {cursor other : ConversationCursor} {n : Nat}
    (hle : n ≤ cursor.agreesThrough other) : n ∈ cursor ↔ n ∈ other := by
  unfold agreesThrough at hle
  split at hle
  · rw [mem_iff_of_le (hle.trans (min_le_left _ _)), mem_iff_of_le (hle.trans (min_le_right _ _))]
  next hsame =>
    rw [ne_eq, not_not] at hsame
    rcases Nat.eq_zero_or_pos n with rfl | hpos
    · exact ⟨fun hmem => absurd (pos_of_mem hmem) (lt_irrefl 0),
        fun hmem => absurd (pos_of_mem hmem) (lt_irrefl 0)⟩
    -- a sequence that only one cursor read is above the bound
    have hboth : n ∉ cursor.readByOne other := by
      intro hmem
      rw [List.min?_eq_some_min (List.ne_nil_of_mem hmem), Option.getD_some] at hle
      have hmin := List.min_le_of_mem hmem
      omega
    simp only [readByOne, List.mem_append, List.mem_filter, decide_eq_true_eq, not_or,
      not_and, not_not] at hboth
    rw [mem_iff, mem_iff, hsame]
    exact or_congr_right ⟨hboth.1, hboth.2⟩

end ConversationCursor

end AgentComms.Reads
