import Mathlib.Data.List.Basic
import Mathlib.Data.List.Induction

/-! # Options that are read from first to last

A walk over options that ends at the first one it rejects. Whether an option is rejected depends on the
option alone. What the walk makes of the others is told field by field: the last option that sets a field
gives it its value, and a flag is raised when some option raises it.
-/

namespace Options

variable {α β ε σ : Type*} {f : σ → α → Except ε σ} {reject : α → Option ε} {g : σ → α → σ} {l : List α} {s : σ}

/-- Each option is rejected with an error of its own, or applied. -/
def Guards (f : σ → α → Except ε σ) (reject : α → Option ε) (g : σ → α → σ) : Prop :=
  ∀ s x, f s x = (reject x).elim (.ok (g s x)) .error

/-- The first option that is rejected decides, and without one all options are applied. -/
theorem Guards.foldlM (guards : Guards f reject g) :
    l.foldlM f s = (l.findSome? reject).elim (.ok (l.foldl g s)) .error := by
  induction l generalizing s with
  | nil => rfl
  | cons x l ih =>
    rw [List.foldlM_cons, List.findSome?_cons, guards s x]
    cases reject x with
    | some e => rfl
    | none => exact ih

/-- What every option keeps, the walk keeps. -/
theorem foldl_preserves {I : σ → Prop} (initial : I s) (step : ∀ s, ∀ x ∈ l, I s → I (g s x)) : I (l.foldl g s) := by
  induction l generalizing s with
  | nil => exact initial
  | cons x l ih =>
    exact ih (step s x List.mem_cons_self initial) fun s y member => step s y (List.mem_cons_of_mem x member)

/-- The last option that sets the field gives it its value. -/
theorem foldl_last (field : σ → β) (sets : α → Bool) (value : α → β)
    (step : ∀ s, ∀ x ∈ l, field (g s x) = if sets x then value x else field s) :
    field (l.foldl g s) = ((l.filter sets).getLast?).elim (field s) value := by
  induction l using List.reverseRecOn with
  | nil => rfl
  | append_singleton l x ih =>
    have before := ih fun s y member => step s y (List.mem_append_left [x] member)
    have last := step (l.foldl g s) x (List.mem_append_right l (List.mem_singleton_self x))
    rw [List.foldl_append, List.foldl_cons, List.foldl_nil, last, List.filter_append]
    cases set : sets x with
    | true => simp [set]
    | false => simpa [set] using before

/-- The flag is raised when some option raises it. -/
theorem foldl_raised (flag : σ → Prop) (raises : α → Prop) (step : ∀ s, ∀ x ∈ l, flag (g s x) ↔ flag s ∨ raises x) :
    flag (l.foldl g s) ↔ flag s ∨ ∃ x ∈ l, raises x := by
  induction l generalizing s with
  | nil => simp
  | cons x l ih =>
    have rest := ih (s := g s x) fun s y member => step s y (List.mem_cons_of_mem x member)
    rw [List.foldl_cons, rest, step s x List.mem_cons_self, or_assoc, List.exists_mem_cons_iff]

end Options
