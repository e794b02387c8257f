import Mathlib

/-!
# Sorted lists without repetitions

`bisectLeft` and `bisectRight` are the positions a binary search finds in an
increasing list. The lemmas read a list that is searched, extended or cut at such
a position through membership.
-/

namespace AgentComms.Library

variable {α : Type*} [LinearOrder α]

/-- How many leading members are below `x`. -/
def bisectLeft (xs : List α) (x : α) : Nat := (xs.takeWhile (· < x)).length

/-- How many leading members are at most `x`. -/
def bisectRight (xs : List α) (x : α) : Nat := (xs.takeWhile (· ≤ x)).length

theorem bisectLeft_cons_of_lt {a x : α} (xs : List α) (hlt : a < x) :
    bisectLeft (a :: xs) x = bisectLeft xs x + 1 := by
  simp [bisectLeft, hlt]

theorem bisectLeft_cons_of_le {a x : α} (xs : List α) (hle : x ≤ a) :
    bisectLeft (a :: xs) x = 0 := by
  simp [bisectLeft, not_lt.mpr hle]

variable {xs : List α}

/-- The search finds a member exactly at its position. -/
theorem getElem?_bisectLeft (hsorted : xs.Pairwise (· < ·)) (x : α) :
    xs[bisectLeft xs x]? = some x ↔ x ∈ xs := by
  induction xs with
  | nil => simp
  | cons a xs ih =>
    rw [List.pairwise_cons] at hsorted
    rcases lt_or_ge a x with hlt | hle
    · rw [bisectLeft_cons_of_lt xs hlt, List.getElem?_cons_succ, ih hsorted.2, List.mem_cons]
      exact ⟨Or.inr, fun hmem => hmem.resolve_left (ne_of_gt hlt)⟩
    · rw [bisectLeft_cons_of_le xs hle, List.getElem?_cons_zero, Option.some.injEq, List.mem_cons]
      refine ⟨fun heq => .inl heq.symm, fun hmem => ?_⟩
      rcases hmem with rfl | hmem
      · rfl
      · exact absurd (hsorted.1 x hmem) (not_lt.mpr hle)

theorem mem_insertIdx_bisectLeft (xs : List α) (x y : α) :
    y ∈ xs.insertIdx (bisectLeft xs x) x ↔ y = x ∨ y ∈ xs := by
  refine List.mem_insertIdx ?_
  exact (List.takeWhile_sublist _).length_le

/-- An absent element is inserted where the list stays increasing. -/
theorem pairwise_insertIdx_bisectLeft (hsorted : xs.Pairwise (· < ·)) {x : α}
    (hnot : x ∉ xs) : (xs.insertIdx (bisectLeft xs x) x).Pairwise (· < ·) := by
  induction xs with
  | nil => simp [bisectLeft]
  | cons a xs ih =>
    rw [List.pairwise_cons] at hsorted
    rw [List.mem_cons, not_or] at hnot
    rcases lt_or_gt_of_ne hnot.1 with hlt | hgt
    · rw [bisectLeft_cons_of_le xs hlt.le, List.insertIdx_zero, List.pairwise_cons,
        List.pairwise_cons]
      refine ⟨fun y hy => ?_, hsorted⟩
      rcases List.mem_cons.mp hy with rfl | hy
      · exact hlt
      · exact hlt.trans (hsorted.1 y hy)
    · rw [bisectLeft_cons_of_lt xs hgt, List.insertIdx_succ_cons, List.pairwise_cons]
      refine ⟨fun y hy => ?_, ih hsorted.2 hnot.2⟩
      rcases (mem_insertIdx_bisectLeft xs x y).mp hy with rfl | hy
      · exact hgt
      · exact hsorted.1 y hy

/-- Cutting at a position on the right keeps the members above. -/
theorem mem_drop_bisectRight (hsorted : xs.Pairwise (· < ·)) (x y : α) :
    y ∈ xs.drop (bisectRight xs x) ↔ y ∈ xs ∧ x < y := by
  induction xs with
  | nil => simp
  | cons a xs ih =>
    rw [List.pairwise_cons] at hsorted
    by_cases hle : a ≤ x
    · have hcut : bisectRight (a :: xs) x = bisectRight xs x + 1 := by simp [bisectRight, hle]
      rw [hcut, List.drop_succ_cons, ih hsorted.2, List.mem_cons]
      constructor
      · rintro ⟨hmem, hlt⟩
        exact ⟨.inr hmem, hlt⟩
      · rintro ⟨rfl | hmem, hlt⟩
        · exact absurd hlt (not_lt.mpr hle)
        · exact ⟨hmem, hlt⟩
    · have hcut : bisectRight (a :: xs) x = 0 := by simp [bisectRight, hle]
      rw [hcut, List.drop_zero]
      refine ⟨fun hmem => ⟨hmem, ?_⟩, And.left⟩
      rcases List.mem_cons.mp hmem with rfl | hmem
      · exact not_le.mp hle
      · exact (not_le.mp hle).trans (hsorted.1 y hmem)

/-- `sorted(set(xs))`. -/
def sortedSet (xs : List α) : List α := xs.dedup.insertionSort (· ≤ ·)

@[simp] theorem mem_sortedSet {x : α} : x ∈ sortedSet xs ↔ x ∈ xs := by
  rw [sortedSet, List.mem_insertionSort, List.mem_dedup]

theorem pairwise_sortedSet (xs : List α) : (sortedSet xs).Pairwise (· < ·) := by
  have hle : (sortedSet xs).Pairwise (· ≤ ·) := List.pairwise_insertionSort (· ≤ ·) xs.dedup
  have hne : (sortedSet xs).Pairwise (· ≠ ·) :=
    (List.perm_insertionSort (· ≤ ·) xs.dedup).nodup_iff.mpr xs.nodup_dedup
  exact (hle.and hne).imp fun hab => lt_of_le_of_ne hab.1 hab.2

/-- The two ends of a sorted pair are its members, in one order or the other. -/
theorem ends_sortedSet_pair (a b : α) :
    (sortedSet [a, b]).head? = some a ∧ (sortedSet [a, b]).getLast? = some b ∨
      (sortedSet [a, b]).head? = some b ∧ (sortedSet [a, b]).getLast? = some a := by
  rcases eq_or_ne a b with rfl | hne
  · simp [sortedSet]
  · have hdedup : [a, b].dedup = [a, b] := by simp [hne]
    rw [sortedSet, hdedup]
    rcases le_total a b with hle | hle
    · left
      simp [hle]
    · right
      have hnot : ¬ a ≤ b := fun h => hne (le_antisymm h hle)
      simp [hnot]

end AgentComms.Library
