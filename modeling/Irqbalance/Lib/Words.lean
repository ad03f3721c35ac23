import Mathlib.Data.BitVec
import Mathlib.Data.Nat.Bitwise
import Mathlib.Logic.Function.Basic

/-! # Bits in arrays of words

An array of words of one width, read as one sequence of bits, against a bit vector of any length. A loop
that moves words up in place goes down, so that it reads each word before it overwrites it.
-/

namespace Words

variable {w n m k off rem place i j : ℕ}

section Moving

variable {α : Type*}

/-- Store `f a k` at `k + off` for each `k` below `n`, the last one first. -/
def moveUp (f : (ℕ → α) → ℕ → α) (off : ℕ) : ℕ → (ℕ → α) → ℕ → α
  | 0, a => a
  | k + 1, a => moveUp f off k (Function.update a (k + off) (f a k))

end Moving

section Bits

variable {a b : ℕ → BitVec w} {x y : BitVec n}

/-- The bit at a place of the array. -/
def bit (a : ℕ → BitVec w) (i : ℕ) : Bool := (a (i / w)).getLsbD (i % w)

/-- The array starts with these bits. -/
def Holds (a : ℕ → BitVec w) (x : BitVec n) : Prop := ∀ i < n, bit a i = x.getLsbD i

theorem exists_holds (a : ℕ → BitVec w) : ∃ x : BitVec n, Holds a x := by
  refine ⟨(BitVec.ofBoolListLE ((List.range n).map (bit a))).setWidth n, ?_⟩
  intro i bound
  rw [BitVec.getLsbD_setWidth, BitVec.getLsbD_ofBoolListLE, decide_eq_true bound, Bool.true_and]
  simp [bound]

theorem holds_zero (zero : ∀ k < n / w + 1, a k = 0) : Holds a (0 : BitVec n) := by
  intro i bound
  have word : i / w < n / w + 1 := Nat.lt_succ_of_le (Nat.div_le_div_right bound.le)
  rw [bit, zero _ word]
  simp

/-- An array with nothing behind its first word. -/
theorem holds_single (positive : 0 < w) (x : BitVec w) :
    Holds (fun k => if k = 0 then x else 0) (x.setWidth n) := by
  intro i bound
  rw [bit, BitVec.getLsbD_setWidth, decide_eq_true bound, Bool.true_and]
  by_cases low : i < w
  · rw [if_pos (Nat.div_eq_of_lt low), Nat.mod_eq_of_lt low]
  · have behind : i / w ≠ 0 := (Nat.div_pos (not_lt.mp low) positive).ne'
    rw [if_neg behind, BitVec.getLsbD_of_ge x i (not_lt.mp low)]
    exact BitVec.getLsbD_zero

/-- The words of equal bits are equal. -/
theorem Holds.words_eq_iff (positive : 0 < w) (first : Holds a x) (second : Holds b y) (whole : w ∣ n) :
    (∀ k < n / w, a k = b k) ↔ x = y := by
  constructor
  · intro same
    apply BitVec.eq_of_getLsbD_eq
    intro i bound
    have word : i / w < n / w := Nat.div_lt_of_lt_mul (by rwa [Nat.mul_div_cancel' whole])
    rw [← first i bound, ← second i bound, bit, bit, same _ word]
  · rintro rfl k word
    apply BitVec.eq_of_getLsbD_eq
    intro i inside
    have place : k * w + i < n := by
      have next : (k + 1) * w ≤ n / w * w := Nat.mul_le_mul_right w word
      rw [Nat.div_mul_cancel whole, Nat.succ_mul] at next
      omega
    have quotient : (k * w + i) / w = k := by
      rw [Nat.add_comm, Nat.add_mul_div_right _ _ positive, Nat.div_eq_of_lt inside, Nat.zero_add]
    have remainder : (k * w + i) % w = i := by
      rw [Nat.add_comm, Nat.add_mul_mod_self_right, Nat.mod_eq_of_lt inside]
    have same := (first _ place).trans (second _ place).symm
    rwa [bit, bit, quotient, remainder] at same

/-- The upper bits of one word and the lower bits of the next make one word. -/
theorem getLsbD_carry (lower upper : BitVec w) (inside : rem < w) (bound : i < w) :
    (lower >>> (w - rem) ||| upper <<< rem).getLsbD i =
      if i < rem then lower.getLsbD (w - rem + i) else upper.getLsbD (i - rem) := by
  rw [BitVec.getLsbD_or, BitVec.getLsbD_ushiftRight, BitVec.getLsbD_shiftLeft, decide_eq_true bound, Bool.true_and]
  split
  · rename_i low
    rw [decide_eq_true low, Bool.not_true, Bool.false_and, Bool.or_false]
  · rename_i high
    rw [BitVec.getLsbD_of_ge lower _ (by omega), decide_eq_false high, Bool.not_false, Bool.true_and, Bool.false_or]

/-- A group of bits that lies in one word. -/
theorem Holds.extract (holds : Holds a x) (inside : place % w + m ≤ w) (bound : place + m ≤ n) :
    (a (place / w) >>> (place % w)).toNat % 2 ^ m = x.toNat / 2 ^ place % 2 ^ m := by
  apply Nat.eq_of_testBit_eq
  intro i
  rw [Nat.testBit_mod_two_pow, Nat.testBit_mod_two_pow, Nat.testBit_div_two_pow]
  by_cases low : i < m
  · have same := holds (place + i) (by omega)
    have positive : 0 < w := by omega
    have within : place % w + i < w := by omega
    have split : place + i = w * (place / w) + (place % w + i) := by
      rw [← Nat.add_assoc, Nat.div_add_mod]
    have quotient : (place + i) / w = place / w := by
      rw [split, Nat.mul_add_div positive, Nat.div_eq_of_lt within, Nat.add_zero]
    have remainder : (place + i) % w = place % w + i := by
      rw [split, Nat.mul_add_mod, Nat.mod_eq_of_lt within]
    rw [bit, quotient, remainder] at same
    rw [BitVec.testBit_toNat, BitVec.getLsbD_ushiftRight, same, Nat.add_comm i, BitVec.testBit_toNat]
  · simp [low]

end Bits

end Words
