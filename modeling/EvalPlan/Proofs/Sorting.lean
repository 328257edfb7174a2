import EvalPlan.Text
import Mathlib.Data.List.Sort
import Mathlib.Data.UInt

/-!
# Sorted texts

Texts are compared unit by unit, as lists are. Sorting them is insertion sort by this order, so that
each text is kept as often as it was there, and texts that are the same in some order are the same
once they are sorted.
-/

namespace EvalPlan.Text

/-- A text is before another one if it is less as a list of code units. -/
theorem before_iff {s t : Text} : before s t = true ↔ s < t := by
  induction s generalizing t with
  | nil => cases t <;> simp [before]
  | cons u s ih =>
    cases t with
    | nil => simp [before]
    | cons v t =>
      rw [List.cons_lt_cons_iff]
      by_cases h : u = v
      · subst h
        simp [before, ih]
      · simp [before, h]

/-- A text is put where the library's insertion puts it. -/
theorem insertSorted_eq (t : Text) (ts : List Text) :
    insertSorted t ts = ts.orderedInsert (· ≤ ·) t := by
  induction ts with
  | nil => rfl
  | cons u ts ih =>
    have hle : t ≤ u ↔ ¬ before u t = true := by rw [before_iff, List.not_lt]
    rw [insertSorted, List.orderedInsert, ih]
    split
    next hbefore => rw [if_neg fun h => hle.mp h hbefore]
    next hbefore => rw [if_pos (hle.mpr hbefore)]

/-- Texts are sorted by the library's insertion sort. -/
theorem sort_eq (ts : List Text) : sort ts = ts.insertionSort (· ≤ ·) := by
  unfold sort List.insertionSort
  exact congrArg (fun f => ts.foldr f []) (funext fun t => funext fun us => insertSorted_eq t us)

/-- Sorting takes no text away and adds none. -/
theorem sort_perm (ts : List Text) : (sort ts).Perm ts := by
  rw [sort_eq]
  exact List.perm_insertionSort _ ts

/-- Sorted texts are in order. -/
theorem sorted_sort (ts : List Text) : (sort ts).Pairwise (· ≤ ·) := by
  rw [sort_eq]
  exact List.pairwise_insertionSort _ ts

/-- The order in which texts stand does not matter for what sorting makes of them. -/
theorem sort_eq_of_perm {ts us : List Text} (h : ts.Perm us) : sort ts = sort us :=
  List.Perm.eq_of_pairwise (fun _ _ _ _ => List.le_antisymm) (sorted_sort ts) (sorted_sort us)
    (((sort_perm ts).trans h).trans (sort_perm us).symm)

end EvalPlan.Text
