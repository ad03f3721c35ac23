import Irqbalance.Lib.Walk
import Mathlib.Order.Defs.Unbundled

/-! # Lists that leave out what they cover

A value is appended to a list unless one of the list is below it. In a transitive relation nothing is
lost: what is above one of the values that were offered is above one of those that were kept.
-/

namespace Covering

variable {α : Type*} {le : α → α → Prop} [DecidableRel le] {l xs : List α} {x z : α}

/-- Append a value unless one of the list is below it. -/
def insertUncovered (le : α → α → Prop) [DecidableRel le] (x : α) (l : List α) : List α :=
  if l.any fun y => decide (le y x) then l else l ++ [x]

/-- The values above one of the list. -/
def Above (le : α → α → Prop) (l : List α) (z : α) : Prop := ∃ y ∈ l, le y z

theorem above_insertUncovered [IsTrans α le] :
    Above le (insertUncovered le x l) z ↔ Above le l z ∨ le x z := by
  unfold insertUncovered
  split
  · rename_i covered
    obtain ⟨y, member, below⟩ := List.any_eq_true.mp covered
    constructor
    · exact .inl
    · rintro (kept | above)
      · exact kept
      · exact ⟨y, member, IsTrans.trans _ _ _ (of_decide_eq_true below) above⟩
  · simp [Above, or_and_right, exists_or]

/-- The values above one of those that have been offered. -/
theorem above_forEach_insertUncovered [IsTrans α le] :
    Above le (forEach xs (insertUncovered le) l) z ↔ Above le l z ∨ Above le xs z := by
  induction xs generalizing l with
  | nil => simp [Above]
  | cons x xs ih =>
    have head : Above le (x :: xs) z ↔ le x z ∨ Above le xs z := by simp [Above]
    rw [forEach_cons, ih, above_insertUncovered, head, or_assoc]

/-- No value of the list is above an earlier one. -/
theorem pairwise_insertUncovered (minimal : l.Pairwise fun y z => ¬ le y z) :
    (insertUncovered le x l).Pairwise fun y z => ¬ le y z := by
  unfold insertUncovered
  split
  · exact minimal
  · rename_i uncovered
    refine List.pairwise_append.mpr ⟨minimal, List.pairwise_singleton _ x, ?_⟩
    intro y member z last below
    rw [List.mem_singleton.mp last] at below
    exact uncovered (List.any_eq_true.mpr ⟨y, member, decide_eq_true below⟩)

end Covering
