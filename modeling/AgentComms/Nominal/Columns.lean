import Mathlib

/-!
# Widths of a table's columns

`fit_widths` gives each column its minimum and shares what is left of the target width in
proportion to what the columns still ask for. A share is the difference of two floored
cumulative shares, so the shares add up exactly.
-/

namespace AgentComms.Nominal

/-- The loop over the columns, each a demand and a minimum; `used` is the demand before them. -/
def shareOut (flexible total : ℤ) : ℤ → List (ℤ × ℤ) → List ℤ
  | _, [] => []
  | used, (demand, minimum) :: columns =>
    (minimum + flexible * (used + demand) / total - flexible * used / total) ::
      shareOut flexible total (used + demand) columns

/-- What a column of this weight and minimum asks for above its minimum. -/
def demandOf (column : ℤ × ℤ) : ℤ := max 0 (column.1 - column.2)

def fitWidths (weights : List ℤ) (available : ℤ) (minimums : List ℤ) : List ℤ :=
  let weights := weights.map (max 1)
  let available := min available weights.sum
  if available < minimums.sum then minimums
  else
    let flexible := max 0 (available - minimums.sum)
    let demands := (weights.zip minimums).map demandOf
    let demands := if demands.sum ≠ 0 then demands else weights
    -- the total is zero only without columns, and then nothing is divided by it
    shareOut flexible demands.sum 0 (demands.zip minimums)

variable {flexible total : ℤ} {columns : List (ℤ × ℤ)}

theorem sum_shareOut (used : ℤ) (columns : List (ℤ × ℤ)) :
    (shareOut flexible total used columns).sum = (columns.map Prod.snd).sum +
      flexible * (used + (columns.map Prod.fst).sum) / total - flexible * used / total := by
  induction columns generalizing used with
  | nil => simp [shareOut]
  | cons column columns ih =>
    obtain ⟨demand, minimum⟩ := column
    rw [shareOut, List.sum_cons, ih, List.map_cons, List.map_cons, List.sum_cons, List.sum_cons,
      ← add_assoc used demand]
    ring

/-- A column gets its minimum, and above it no more than `cap` when the cap covers its share. -/
theorem shareOut_between (hflexible : 0 ≤ flexible) {demand cap : ℤ × ℤ → ℤ}
    (hcolumns : ∀ column ∈ columns, 0 < total ∧ 0 ≤ demand column ∧
      flexible * demand column ≤ cap column * total) (used : ℤ) :
    List.Forall₂ (fun column width => column.2 ≤ width ∧ width ≤ column.2 + cap column) columns
      (shareOut flexible total used (columns.map fun column => (demand column, column.2))) := by
  induction columns generalizing used with
  | nil => exact .nil
  | cons column columns ih =>
    obtain ⟨⟨htotal, hdemand, hcap⟩, hrest⟩ := List.forall_mem_cons.mp hcolumns
    refine .cons ?_ (ih hrest _)
    have hlow : flexible * used / total ≤ flexible * (used + demand column) / total :=
      Int.ediv_le_ediv htotal (mul_le_mul_of_nonneg_left (by omega) hflexible)
    have hhigh : flexible * (used + demand column) / total ≤
        flexible * used / total + cap column := by
      rw [← Int.add_mul_ediv_right _ _ htotal.ne', mul_add]
      exact Int.ediv_le_ediv htotal (by omega)
    omega

theorem sum_sub_le_demands (columns : List (ℤ × ℤ)) :
    (columns.map Prod.fst).sum - (columns.map Prod.snd).sum ≤ (columns.map demandOf).sum := by
  induction columns with
  | nil => simp
  | cons column columns ih =>
    simp only [List.map_cons, List.sum_cons, demandOf] at ih ⊢
    omega

/-- What is left over is shared out by the demands, which cover it, or is nothing. -/
theorem shareOut_fits (columns : List (ℤ × ℤ)) (flexible : ℤ)
    (hweights : ∀ column ∈ columns, 1 ≤ column.1) (hflexible : 0 ≤ flexible)
    (hcovers : flexible ≤ (columns.map Prod.fst).sum - (columns.map Prod.snd).sum) :
    let demands := if (columns.map demandOf).sum ≠ 0 then columns.map demandOf
      else columns.map Prod.fst
    let widths := shareOut flexible demands.sum 0 (demands.zip (columns.map Prod.snd))
    widths.sum = (columns.map Prod.snd).sum + flexible ∧
      List.Forall₂ (fun column width => column.2 ≤ width ∧ width ≤ max column.1 column.2)
        columns widths := by
  intro demands widths
  have hasked : ∀ column : ℤ × ℤ, 0 ≤ demandOf column := fun column => le_max_left _ _
  have hasks := hcovers.trans (sum_sub_le_demands columns)
  obtain ⟨demand, hdemand, hexact, hcolumns⟩ : ∃ demand, demands = columns.map demand ∧
      flexible * demands.sum / demands.sum = flexible ∧ ∀ column ∈ columns, 0 < demands.sum ∧
        0 ≤ demand column ∧ flexible * demand column ≤ demandOf column * demands.sum := by
    by_cases hsum : (columns.map demandOf).sum ≠ 0
    · have hpos : 0 < (columns.map demandOf).sum := by
        refine lt_of_le_of_ne (List.sum_nonneg fun x hx => ?_) hsum.symm
        obtain ⟨column, -, rfl⟩ := List.mem_map.mp hx
        exact hasked column
      rw [show demands = columns.map demandOf from if_pos hsum]
      refine ⟨_, rfl, Int.mul_ediv_cancel _ hsum, fun column _ => ⟨hpos, hasked column, ?_⟩⟩
      rw [mul_comm]
      exact mul_le_mul_of_nonneg_left hasks (hasked column)
    · -- nothing is asked for, so nothing is left over
      obtain rfl : flexible = 0 := by omega
      rw [show demands = columns.map Prod.fst from if_neg hsum]
      refine ⟨_, rfl, by simp, fun column hcolumn => ?_⟩
      have hweight := hweights column hcolumn
      have hle : column.1 ≤ (columns.map Prod.fst).sum := by
        refine List.single_le_sum (fun x hx => ?_) _ (List.mem_map_of_mem hcolumn)
        obtain ⟨other, hother, rfl⟩ := List.mem_map.mp hx
        linarith [hweights other hother]
      refine ⟨by omega, by omega, ?_⟩
      rw [zero_mul]
      exact mul_nonneg (hasked column) (by omega)
  have hwidths : widths = shareOut flexible demands.sum 0
      (columns.map fun column => (demand column, column.2)) := by
    rw [← List.zip_map', ← hdemand]
  rw [hwidths]
  constructor
  · rw [sum_shareOut, List.map_map, List.map_map, zero_add, mul_zero, Int.zero_ediv, sub_zero]
    change _ + flexible * (columns.map demand).sum / demands.sum = _
    rw [← hdemand, hexact]
    rfl
  · refine (shareOut_between hflexible hcolumns 0).imp fun column width hwidth => ?_
    rw [demandOf] at hwidth
    omega

/-- The widths add up to the smaller of the available width and the weights, each between its
minimum and the larger of its weight and its minimum; minimums that do not fit are returned. -/
theorem fit_widths_exact (weights minimums : List ℤ) (available : ℤ)
    (hlength : weights.length = minimums.length) :
    ∀ target, target = min available (weights.map (max 1)).sum →
    (minimums.sum ≤ target → (fitWidths weights available minimums).sum = target ∧
      List.Forall₂ (fun column width => column.2 ≤ width ∧ width ≤ max (max 1 column.1) column.2)
        (weights.zip minimums) (fitWidths weights available minimums)) ∧
    (target < minimums.sum → fitWidths weights available minimums = minimums) := by
  intro target htarget
  refine ⟨fun hfits => ?_, fun hover => if_pos (htarget ▸ hover)⟩
  have hweights : ∀ column ∈ (weights.map (max 1)).zip minimums, 1 ≤ column.1 := by
    intro column hcolumn
    obtain ⟨weight, -, hweight⟩ := List.mem_map.mp (List.of_mem_zip hcolumn).1
    exact hweight ▸ le_max_left _ _
  have hshared := shareOut_fits ((weights.map (max 1)).zip minimums) (target - minimums.sum)
    hweights (by omega)
  rw [List.map_fst_zip (by simp [hlength]), List.map_snd_zip (by simp [hlength])] at hshared
  obtain ⟨hsum, hbetween⟩ := hshared (by omega)
  have hwidths : fitWidths weights available minimums = shareOut (target - minimums.sum) _ 0 _ :=
    (if_neg (not_lt.mpr (htarget ▸ hfits))).trans (by rw [← htarget, max_eq_right (by omega)])
  rw [← hwidths] at hsum hbetween
  rw [List.zip_map_left, List.forall₂_map_left_iff] at hbetween
  exact ⟨by omega, hbetween⟩

theorem fit_widths_exact_two :
    [3, 0].length = [1, 0].length ∧ (fitWidths [3, 0] 3 [1, 0]).sum = 3 :=
  ⟨rfl, ((fit_widths_exact [3, 0] [1, 0] 3 rfl 3 rfl).1 (by decide)).1⟩

end AgentComms.Nominal
