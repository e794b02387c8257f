import AgentComms.Reads.Cursor

/-!
# The algebra of cursors

The class takes any integers, and a cursor's own numbers are never negative: an integer below
zero compares with them as zero does, so the operations take it as `Int.toNat` gives it.
-/

namespace AgentComms.Reads.ConversationCursor

/-- The sequences a cursor contains. -/
def sequences (cursor : ConversationCursor) : Set ℤ := {sequence | sequence.toNat ∈ cursor}

theorem mem_sequences {cursor : ConversationCursor} {sequence : ℤ} :
    sequence ∈ cursor.sequences ↔ sequence.toNat ∈ cursor := Iff.rfl

/-- The operations are the set operations, and neither order nor grouping matters to a union. -/
theorem cursor_algebra :
    (∀ cursor : ConversationCursor, cursor.exceptions.Pairwise (· < ·) ∧
      (∀ n ∈ cursor.exceptions, cursor.highWater < n) ∧
      (∀ sequence : ℤ, cursor.contains sequence.toNat = true ↔
        0 < sequence ∧ sequence ≤ cursor.highWater ∨
          ∃ n ∈ cursor.exceptions, (n : ℤ) = sequence) ∧
      (∀ added : List ℤ, (cursor.add (added.map Int.toNat)).sequences =
        cursor.sequences ∪ {sequence | sequence ∈ added ∧ 0 < sequence}) ∧
      (∀ n : ℤ, (cursor.through n.toNat).sequences = cursor.sequences ∪ Set.Icc 1 n) ∧
      ∀ (other : ConversationCursor) (sequence : ℤ), 0 < sequence →
        sequence ≤ cursor.agreesThrough other →
        (sequence ∈ cursor.sequences ↔ sequence ∈ other.sequences)) ∧
    (∀ cursors : List ConversationCursor,
      (union cursors).sequences = ⋃ cursor ∈ cursors, cursor.sequences) ∧
    (∀ cursors others : List ConversationCursor, cursors.Perm others →
      (union cursors).sequences = (union others).sequences) ∧
    (∀ groups : List (List ConversationCursor),
      (union (groups.map union)).sequences = (union groups.flatten).sequences) := by
  refine ⟨fun cursor => ⟨cursor.sorted, cursor.above, fun sequence => mem_iff.trans ?_,
    fun added => ?_, fun n => ?_, fun other sequence hpos hle => ?_⟩,
    fun cursors => ?_, fun cursors others hperm => ?_, fun groups => ?_⟩
  · refine or_congr (by omega) ⟨fun hmem => ⟨_, hmem, ?_⟩, ?_⟩
    · have := cursor.above _ hmem
      omega
    · rintro ⟨n, hmem, rfl⟩
      rwa [Int.toNat_natCast]
  · ext sequence
    simp only [mem_sequences, mem_add, Set.mem_union, List.mem_map]
    refine or_congr_right ⟨?_, fun hread => ⟨by have := hread.2; omega, sequence, hread.1, rfl⟩⟩
    rintro ⟨hpos, other, hmem, hsame⟩
    obtain rfl : other = sequence := by omega
    exact ⟨hmem, by omega⟩
  · ext sequence
    simp only [mem_sequences, mem_through, Set.mem_union, Set.mem_Icc]
    rw [or_comm]
    exact or_congr_right (by omega)
  · exact mem_iff_of_le_agreesThrough (by omega)
  · ext sequence
    simp [mem_sequences]
  · ext sequence
    simp [mem_sequences, hperm.mem_iff]
  · ext sequence
    simp only [mem_sequences, mem_union, List.mem_map, exists_exists_and_eq_and,
      List.mem_flatten]
    tauto

end AgentComms.Reads.ConversationCursor
