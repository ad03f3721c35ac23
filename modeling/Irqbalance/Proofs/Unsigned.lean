import Irqbalance.Model.Types

/-! # Unsigned 64-bit arithmetic

When the reductions of `u64` and `u64Sub` can be dropped, and the value of an accumulator that a walk
adds to.
-/

namespace Irqbalance

variable {a b n : ℕ}

theorem u64_lt (n : ℕ) : u64 n < 2 ^ 64 := Nat.mod_lt n (by decide)

theorem u64_le (n : ℕ) : u64 n ≤ n := Nat.mod_le n _

theorem u64_of_lt (small : n < 2 ^ 64) : u64 n = n := Nat.mod_eq_of_lt small

theorem u64_eq_iff : u64 n = n ↔ n < 2 ^ 64 := ⟨fun exact => exact ▸ u64_lt n, u64_of_lt⟩

@[simp] theorem u64_zero : u64 0 = 0 := rfl

@[simp] theorem u64_u64 (n : ℕ) : u64 (u64 n) = u64 n := Nat.mod_mod n _

@[simp] theorem u64_add_u64 (a b : ℕ) : u64 (a + u64 b) = u64 (a + b) := Nat.add_mod_mod a b _

@[simp] theorem u64_u64_add (a b : ℕ) : u64 (u64 a + b) = u64 (a + b) := Nat.mod_add_mod a _ b

theorem u64Sub_of_le (le : b ≤ a) (small : a < 2 ^ 64) : u64Sub a b = a - b := by
  unfold u64Sub
  omega

/-- An accumulator holds the sum, reduced once. -/
theorem forEach_u64 {α : Type*} (f : α → ℕ) (l : List α) (acc : ℕ) :
    forEach l (fun x acc => u64 (acc + f x)) (u64 acc) = u64 (acc + (l.map f).sum) := by
  induction l generalizing acc with
  | nil => simp
  | cons x rest ih =>
    rw [forEach_cons, u64_u64_add, ih, List.map_cons, List.sum_cons, Nat.add_assoc]

end Irqbalance
