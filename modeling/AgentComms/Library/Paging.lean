import AgentComms.Library.Run

/-!
# Paging by key

A list in increasing order of a key is read a bounded page at a time, each page starting
after the last key of the page before, until a page is empty. With one round more than
the list has items, the pages together are all items after the first key.
-/

namespace AgentComms.Library

variable {α : Type u} (key : α → Nat) (limit : Nat)

def page (items : List α) (after : Nat) : List α :=
  (items.filter fun item => after < key item).take limit

def pages (items : List α) : Nat → Nat → List α
  | 0, _ => []
  | fuel + 1, after =>
    match (page key limit items after).getLast? with
    | some last => page key limit items after ++ pages items fuel (key last)
    | none => []

def shortPages (items : List α) : Nat → Nat → List α
  | 0, _ => []
  | fuel + 1, after =>
    if (page key limit items after).length < limit then page key limit items after
    else match (page key limit items after).getLast? with
      | some last => page key limit items after ++ shortPages items fuel (key last)
      | none => []

variable {key limit}

/-- Nothing in an ordered list is after its last item. -/
theorem key_le_getLast {items : List α} (hordered : items.Pairwise (key · < key ·)) {item last : α}
    (hmem : item ∈ items) (hlast : items.getLast? = some last) : key item ≤ key last := by
  obtain ⟨front, rfl⟩ := List.getLast?_eq_some_iff.mp hlast
  rcases List.mem_append.mp hmem with hfront | hback
  · exact Nat.le_of_lt ((List.pairwise_append.mp hordered).2.2 item hfront last
      (List.mem_singleton_self last))
  · rw [List.mem_singleton.mp hback]

structure Cut (key : α → Nat) (items : List α) (bound : Nat) (front back : List α) : Prop where
  eq : items = front ++ back
  front : ∀ item ∈ front, key item < bound
  back : ∀ item ∈ back, bound ≤ key item

section Cuts

variable {items front back : List α} {bound : Nat} {item : α}

theorem Cut.front_eq (hcut : Cut key items bound front back) :
    (items.filter fun item => key item < bound) = front := by
  rw [hcut.eq, List.filter_append, List.filter_eq_self.mpr, List.filter_eq_nil_iff.mpr,
    List.append_nil]
  · intro item hitem
    simpa using hcut.back item hitem
  · intro item hitem
    exact decide_eq_true (hcut.front item hitem)

theorem Cut.back_eq (hcut : Cut key items bound front back) :
    (items.filter fun item => bound ≤ key item) = back := by
  rw [hcut.eq, List.filter_append, List.filter_eq_nil_iff.mpr, List.filter_eq_self.mpr,
    List.nil_append]
  · intro item hitem
    exact decide_eq_true (hcut.back item hitem)
  · intro item hitem
    simpa using hcut.front item hitem

/-- An ordered list is cut before each of its items, and after it. -/
theorem cut_of_ordered (hordered : items.Pairwise (key · < key ·))
    (heq : items = front ++ item :: back) :
    Cut key items (key item) front (item :: back) ∧
      Cut key items (key item + 1) (front ++ [item]) back := by
  subst heq
  obtain ⟨-, hback, hacross⟩ := List.pairwise_append.mp hordered
  have hafter := (List.pairwise_cons.mp hback).1
  have hbefore : ∀ other ∈ front, key other < key item :=
    fun other hother => hacross other hother item List.mem_cons_self
  refine ⟨⟨rfl, hbefore, ?_⟩, ⟨by simp, ?_, hafter⟩⟩
  · intro other hother
    rcases List.mem_cons.mp hother with rfl | hother
    · exact Nat.le_refl _
    · exact Nat.le_of_lt (hafter other hother)
  · intro other hother
    rcases List.mem_append.mp hother with hother | hother
    · exact Nat.lt_succ_of_lt (hbefore other hother)
    · rw [List.mem_singleton.mp hother]
      exact Nat.lt_succ_self _

/-- An ordered list is cut at every key. -/
theorem exists_cut (hordered : items.Pairwise (key · < key ·)) (bound : Nat) :
    ∃ front back, Cut key items bound front back := by
  induction items with
  | nil => exact ⟨[], [], rfl, by simp, by simp⟩
  | cons item rest ih =>
    obtain ⟨hafter, hrest⟩ := List.pairwise_cons.mp hordered
    by_cases hitem : key item < bound
    · obtain ⟨front, back, rfl, hfront, hback⟩ := ih hrest
      exact ⟨item :: front, back, rfl, List.forall_mem_cons.mpr ⟨hitem, hfront⟩, hback⟩
    · refine ⟨[], item :: rest, rfl, by simp, List.forall_mem_cons.mpr ⟨by omega, ?_⟩⟩
      intro other hother
      have hless := hafter other hother
      omega

end Cuts

variable {items : List α} (hordered : items.Pairwise (key · < key ·))
include hordered

/-- A page and what comes after its last item are all that comes after the key. -/
theorem page_append_after
    {after : Nat} {last : α} (hlast : (page key limit items after).getLast? = some last) :
    page key limit items after ++ (items.filter fun item => key last < key item) =
      items.filter fun item => after < key item := by
  obtain ⟨front, back, hcut⟩ := exists_cut hordered (after + 1)
  have hback : (items.filter fun item => after < key item) = back := hcut.back_eq
  obtain ⟨init, hinit⟩ := List.getLast?_eq_some_iff.mp hlast
  have hitems : items = (front ++ init) ++ last :: back.drop limit := by
    rw [hcut.eq, List.append_assoc, List.append_cons init, ← hinit, page, hback,
      List.take_append_drop]
  have hrest : (items.filter fun item => key last < key item) = back.drop limit :=
    (cut_of_ordered hordered hitems).2.back_eq
  rw [hrest, page, hback, List.take_append_drop]

/-- What comes after the last item of a page is less than what came before it. -/
theorem length_after_page
    {after : Nat} {last : α} (hlast : (page key limit items after).getLast? = some last) :
    (items.filter fun item => key last < key item).length <
      (items.filter fun item => after < key item).length := by
  rw [← page_append_after hordered hlast, List.length_append]
  have hmem := List.length_pos_of_mem (List.mem_of_getLast? hlast)
  omega

/-- Enough rounds read everything after the key. -/
theorem pages_eq (hlimit : 0 < limit) {fuel after : Nat}
    (hfuel : (items.filter fun item => after < key item).length < fuel) :
    pages key limit items fuel after = items.filter fun item => after < key item := by
  induction fuel generalizing after with
  | zero => exact absurd hfuel (Nat.not_lt_zero _)
  | succ fuel ih =>
    unfold pages
    cases hlast : (page key limit items after).getLast? with
    | none =>
      rcases List.take_eq_nil_iff.mp (List.getLast?_eq_none_iff.mp hlast) with hzero | hnil
      · omega
      · exact hnil.symm
    | some =>
      have hless := length_after_page hordered hlast
      simp only
      rw [ih (by omega), page_append_after hordered hlast]

/-- Enough rounds read everything after the key. -/
theorem shortPages_eq (hlimit : 0 < limit) {fuel after : Nat}
    (hfuel : (items.filter fun item => after < key item).length < fuel) :
    shortPages key limit items fuel after = items.filter fun item => after < key item := by
  induction fuel generalizing after with
  | zero => exact absurd hfuel (Nat.not_lt_zero _)
  | succ fuel ih =>
    unfold shortPages
    have hlength : (page key limit items after).length =
        min limit (items.filter fun item => after < key item).length := List.length_take
    split
    case isTrue => exact List.take_of_length_le (by omega)
    case isFalse hfull =>
      cases hlast : (page key limit items after).getLast? with
      | none =>
        rw [List.getLast?_eq_none_iff.mp hlast, List.length_nil] at hfull
        omega
      | some =>
        have hless := length_after_page hordered hlast
        simp only
        rw [ih (by omega), page_append_after hordered hlast]

end AgentComms.Library
