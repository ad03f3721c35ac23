import Irqbalance.Lib.Words

/-! # Loops over the words of several arrays

A loop that stores one word of an array in each round and reads words of any of the arrays, among them the one that
it writes. If a loop that goes up reads no word below the one that it stores, and a loop that goes down no word
above its counter, then all that is read is what was there before the loop. The loop that goes down within one array
is `moveUp`.
-/

namespace Words

variable {ρ α : Type*} [DecidableEq ρ] {f : (ρ → ℕ → α) → ℕ → α} {s : ρ → ℕ → α} {dst r : ρ} {n off j : ℕ}

/-- `dst[k] = v`. -/
def put (dst : ρ) (k : ℕ) (v : α) (s : ρ → ℕ → α) : ρ → ℕ → α := fun r j => if r = dst ∧ j = k then v else s r j

/-- `dst[k] = f(k)` for each `k` below `n`, the first one first. -/
def ascend (dst : ρ) (f : (ρ → ℕ → α) → ℕ → α) : ℕ → (ρ → ℕ → α) → ρ → ℕ → α
  | 0, s => s
  | n + 1, s => put dst n (f (ascend dst f n s) n) (ascend dst f n s)

/-- `dst[k + off] = f(k)` for each `k` below `n`, the last one first. -/
def descend (dst : ρ) (f : (ρ → ℕ → α) → ℕ → α) (off : ℕ) : ℕ → (ρ → ℕ → α) → ρ → ℕ → α
  | 0, s => s
  | n + 1, s => descend dst f off n (put dst (n + off) (f s n) s)

/-- `memset` of `n` words from `place` on. -/
def setWords (dst : ρ) (place n : ℕ) (v : α) (s : ρ → ℕ → α) : ρ → ℕ → α := fun r j =>
  if r = dst ∧ place ≤ j ∧ j < place + n then v else s r j

theorem ascend_apply (reads : ∀ s s' k, (∀ r, ∀ j ≥ k, s r j = s' r j) → f s k = f s' k) :
    ascend dst f n s r j = if r = dst ∧ j < n then f s j else s r j := by
  induction n generalizing r j with
  | zero => rw [ascend, if_neg fun below => Nat.not_lt_zero j below.2]
  | succ n ih =>
    have same : f (ascend dst f n s) n = f s n := reads _ _ n fun r j above => by
      rw [ih, if_neg fun below => Nat.not_lt.mpr above below.2]
    rw [ascend, put, same, ih]
    split
    · rename_i last
      rw [if_pos ⟨last.1, by omega⟩, last.2]
    · rename_i other
      by_cases stored : r = dst ∧ j < n
      · rw [if_pos stored, if_pos ⟨stored.1, by omega⟩]
      · rw [if_neg stored, if_neg fun below => stored ⟨below.1, by
          have last : j ≠ n := fun last => other ⟨below.1, last⟩
          omega⟩]

theorem descend_apply (reads : ∀ s s' k, (∀ r, ∀ j ≤ k, s r j = s' r j) → f s k = f s' k) :
    descend dst f off n s r j = if r = dst ∧ off ≤ j ∧ j < n + off then f s (j - off) else s r j := by
  induction n generalizing s with
  | zero => rw [descend, if_neg (by omega)]
  | succ n ih =>
    rw [descend, ih]
    by_cases stored : r = dst ∧ off ≤ j ∧ j < n + off
    · rw [if_pos stored, if_pos ⟨stored.1, by omega⟩]
      apply reads
      intro r i below
      rw [put, if_neg (by omega)]
    · rw [if_neg stored, put]
      split
      · rename_i last
        rw [if_pos ⟨last.1, by omega⟩, last.2, Nat.add_sub_cancel]
      · rename_i other
        rw [if_neg]
        rintro ⟨same, above, below⟩
        have last : j ≠ n + off := fun last => other ⟨same, last⟩
        exact stored ⟨same, above, by omega⟩

theorem put_eq_update (k : ℕ) (v : α) : put dst k v s = Function.update s dst (Function.update (s dst) k v) := by
  funext r j
  by_cases same : r = dst
  · subst same
    rw [Function.update_self, Function.update_apply, put]
    simp only [true_and]
  · rw [Function.update_of_ne same, put, if_neg fun there => same there.1]

/-- A loop that goes down and reads the array that it writes moves that array up in place. -/
theorem descend_eq_moveUp (f : (ℕ → α) → ℕ → α) (dst : ρ) (off n : ℕ) (s : ρ → ℕ → α) :
    descend dst (fun s => f (s dst)) off n s = Function.update s dst (moveUp f off n (s dst)) := by
  induction n generalizing s with
  | zero => rw [descend, moveUp, Function.update_eq_self]
  | succ n ih => rw [descend, ih, put_eq_update, Function.update_self, Function.update_idem, moveUp]

/-- The words that `moveUp` leaves are those of a copy. -/
theorem moveUp_apply {f : (ℕ → α) → ℕ → α} {a : ℕ → α} (reads : ∀ a b k, (∀ j ≤ k, a j = b j) → f a k = f b k) :
    moveUp f off n a j = if off ≤ j ∧ j < n + off then f a (j - off) else a j := by
  have loop := congrFun (congrFun (descend_eq_moveUp f () off n fun _ => a) ()) j
  rw [descend_apply fun _ _ k same => reads _ _ k (same ()), Function.update_self] at loop
  rw [← loop]
  simp only [true_and]

end Words
