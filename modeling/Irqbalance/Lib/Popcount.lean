import Mathlib.Data.Nat.Bitwise
import Mathlib.Data.Nat.Digits.Defs
import Mathlib.Tactic.Ring

/-! # Counting bits within a register

The count of the set bits of a word by sums of neighbouring fields: pairs of bits, pairs of pairs and pairs of
nibbles, and then a multiplication that adds up all bytes in the top one. No field overflows into its neighbour, so
each step acts on each byte alone, and on one byte the steps count its bits.
-/

namespace Popcount

variable {k n m x lo hi : ℕ}

/-- The set bits below `n`. -/
def weight (n x : ℕ) : ℕ := ((List.range n).filter x.testBit).length

/-- The byte `m` in each of `k` bytes. -/
def rep (m : ℕ) : ℕ → ℕ
  | 0 => 0
  | k + 1 => m + 256 * rep m k

/-- Counts of pairs of bits. -/
def pairs (k x : ℕ) : ℕ := x - (x / 2 &&& rep 0x55 k)

/-- Sums of pairs of these. -/
def nibbles (k x : ℕ) : ℕ := (x &&& rep 0x33 k) + (x / 4 &&& rep 0x33 k)

/-- Sums of pairs of nibbles. -/
def bytes (k x : ℕ) : ℕ := x + x / 16 &&& rep 0x0f k

/-- The counts of the bytes. -/
def byteOnes : ℕ → ℕ → List ℕ
  | 0, _ => []
  | k + 1, x => weight 8 (x % 256) :: byteOnes k (x / 256)

section Fields

theorem testBit_field (low : lo < 2 ^ m) (j : ℕ) :
    (lo + 2 ^ m * hi).testBit j = if j < m then lo.testBit j else hi.testBit (j - m) := by
  rw [Nat.add_comm]
  exact Nat.testBit_two_pow_mul_add hi low j

theorem and_field {a b c d : ℕ} (low : a < 2 ^ m) (mask : c < 2 ^ m) :
    (a + 2 ^ m * b) &&& (c + 2 ^ m * d) = (a &&& c) + 2 ^ m * (b &&& d) := by
  have both : a &&& c < 2 ^ m := Nat.and_le_right.trans_lt mask
  apply Nat.eq_of_testBit_eq
  intro j
  rw [Nat.testBit_and, testBit_field low, testBit_field mask, testBit_field both, Nat.testBit_and, Nat.testBit_and]
  split <;> rfl

theorem and_byte {a b c d : ℕ} (low : a < 256) (mask : c < 256) :
    (a + 256 * b) &&& (c + 256 * d) = (a &&& c) + 256 * (b &&& d) := and_field (m := 8) low mask

theorem pairs_byte : ∀ lo < 256, ∀ r < 2, lo / 2 + 128 * r &&& 0x55 = lo / 2 &&& 0x55 := by decide +kernel

theorem nibbles_byte : ∀ lo < 256, ∀ r < 4, lo / 4 + 64 * r &&& 0x33 = lo / 4 &&& 0x33 := by decide +kernel

theorem bytes_byte : ∀ lo < 256, bytes 1 (nibbles 1 (pairs 1 lo)) = weight 8 lo ∧
    nibbles 1 (pairs 1 lo) ≤ 0x44 ∧ nibbles 1 (pairs 1 lo) % 16 ≤ 4 := by decide +kernel

theorem weight_byte : ∀ lo < 256, weight 8 lo ≤ 8 := by decide +kernel

theorem rep_one (m : ℕ) : rep m 1 = m := rfl

theorem pairs_succ (low : lo < 256) : pairs (k + 1) (lo + 256 * hi) = pairs 1 lo + 256 * pairs k hi := by
  have shifted : (lo + 256 * hi) / 2 = (lo / 2 + 128 * (hi % 2)) + 256 * (hi / 2) := by omega
  have first : lo / 2 &&& 0x55 ≤ lo := Nat.and_le_left.trans (Nat.div_le_self lo 2)
  have others : hi / 2 &&& rep 0x55 k ≤ hi := Nat.and_le_left.trans (Nat.div_le_self hi 2)
  rw [pairs, pairs, pairs, shifted, rep_one, rep, and_byte (by omega) (by decide),
    pairs_byte lo low _ (Nat.mod_lt hi (by decide))]
  omega

theorem nibbles_succ (low : lo < 256) : nibbles (k + 1) (lo + 256 * hi) = nibbles 1 lo + 256 * nibbles k hi := by
  have shifted : (lo + 256 * hi) / 4 = (lo / 4 + 64 * (hi % 4)) + 256 * (hi / 4) := by omega
  rw [nibbles, nibbles, nibbles, shifted, rep_one, rep, and_byte low (by decide), and_byte (by omega) (by decide),
    nibbles_byte lo low _ (Nat.mod_lt hi (by decide))]
  omega

theorem bytes_succ (low : lo ≤ 0x44) (carry : hi % 16 ≤ 4) :
    bytes (k + 1) (lo + 256 * hi) = bytes 1 lo + 256 * bytes k hi := by
  have sum : lo + 256 * hi + (lo + 256 * hi) / 16 =
      (lo + lo / 16 + 16 * (hi % 16)) + 256 * (hi + hi / 16) := by omega
  have mask (x : ℕ) : x &&& 0x0f = x % 16 := Nat.and_two_pow_sub_one_eq_mod x 4
  rw [bytes, bytes, bytes, sum, rep_one, rep, and_byte (by omega) (by decide), mask, mask]
  omega

end Fields

section Counting

theorem nibbles_mod (k : ℕ) (x : ℕ) (small : x < 256 ^ k) : nibbles k (pairs k x) % 16 ≤ 4 := by
  cases k with
  | zero =>
    obtain rfl : x = 0 := by omega
    decide
  | succ k =>
    have low : x % 256 < 256 := Nat.mod_lt x (by decide)
    have first : pairs 1 (x % 256) ≤ x % 256 := Nat.sub_le _ _
    rw [← Nat.mod_add_div x 256, pairs_succ low, nibbles_succ (first.trans_lt low)]
    have byte := (bytes_byte (x % 256) low).2.2
    omega

/-- The steps leave the count of each byte in it. -/
theorem bytes_eq (k : ℕ) (x : ℕ) (small : x < 256 ^ k) :
    bytes k (nibbles k (pairs k x)) = Nat.ofDigits 256 (byteOnes k x) := by
  induction k generalizing x with
  | zero =>
    obtain rfl : x = 0 := by omega
    decide
  | succ k ih =>
    have low : x % 256 < 256 := Nat.mod_lt x (by decide)
    have rest : x / 256 < 256 ^ k := Nat.div_lt_of_lt_mul (by rwa [pow_succ, Nat.mul_comm] at small)
    have first : pairs 1 (x % 256) ≤ x % 256 := Nat.sub_le _ _
    obtain ⟨byte, bound, -⟩ := bytes_byte (x % 256) low
    conv_lhs => rw [← Nat.mod_add_div x 256]
    rw [pairs_succ low, nibbles_succ (first.trans_lt low), bytes_succ bound (nibbles_mod k _ rest), byte,
      ih _ rest, byteOnes, Nat.ofDigits_cons]

theorem weight_add (low : lo < 2 ^ m) : weight (m + n) (lo + 2 ^ m * hi) = weight m lo + weight n hi := by
  rw [weight, List.range_add, List.filter_append, List.length_append, List.filter_map, List.length_map]
  congr 2
  · apply List.filter_congr
    intro j inside
    rw [testBit_field low, if_pos (List.mem_range.mp inside)]
  · apply List.filter_congr
    intro j _
    rw [Function.comp_apply, testBit_field low, if_neg (by omega), Nat.add_sub_cancel_left]

theorem weight_eq_sum (k : ℕ) (x : ℕ) : weight (8 * k) x = (byteOnes k x).sum := by
  induction k generalizing x with
  | zero => rfl
  | succ k ih =>
    have split : weight (8 + 8 * k) (x % 256 + 256 * (x / 256)) = weight 8 (x % 256) + weight (8 * k) (x / 256) :=
      weight_add (m := 8) (Nat.mod_lt x (by decide))
    rw [Nat.mod_add_div, Nat.add_comm, ih] at split
    rw [byteOnes, List.sum_cons, ← split]
    rfl

theorem byteOnes_le (k : ℕ) (x : ℕ) : ∀ count ∈ byteOnes k x, count ≤ 8 := by
  induction k generalizing x with
  | zero => exact nofun
  | succ k ih => exact List.forall_mem_cons.mpr ⟨weight_byte _ (Nat.mod_lt x (by decide)), ih _⟩

theorem length_byteOnes (k x : ℕ) : (byteOnes k x).length = k := by
  induction k generalizing x with
  | zero => rfl
  | succ k ih => exact congrArg Nat.succ (ih _)

theorem top_of_split {high sum low : ℕ} (short : low < 2 ^ 56) (total : sum < 2 ^ 8) :
    (2 ^ 64 * high + (2 ^ 56 * sum + low)) % 2 ^ 64 / 2 ^ 56 = sum := by
  rw [Nat.mul_add_mod, Nat.mod_eq_of_lt (by omega), Nat.mul_add_div (by decide), Nat.div_eq_of_lt short, Nat.add_zero]

/-- The multiplication adds up the bytes of a 64-bit word in its top byte. -/
theorem top_byte {counts : List ℕ} (eight : counts.length = 8) (small : ∀ count ∈ counts, count ≤ 8) :
    Nat.ofDigits 256 counts * 0x0101010101010101 % 2 ^ 64 / 2 ^ 56 = counts.sum := by
  obtain ⟨a, b, c, d, e, f, g, h, rfl⟩ : ∃ a b c d e f g h, counts = [a, b, c, d, e, f, g, h] := by
    rcases counts with _ | ⟨a, _ | ⟨b, _ | ⟨c, _ | ⟨d, _ | ⟨e, _ | ⟨f, _ | ⟨g, _ | ⟨h, _ | _⟩⟩⟩⟩⟩⟩⟩⟩ <;>
      simp at eight
    exact ⟨a, b, c, d, e, f, g, h, rfl⟩
  simp only [List.mem_cons, List.not_mem_nil, or_false, forall_eq_or_imp, forall_eq] at small
  simp only [Nat.ofDigits_cons, Nat.ofDigits_nil, List.sum_cons, List.sum_nil]
  -- what overflows, and the sums of fewer bytes below the top one
  obtain ⟨high, carried⟩ : ∃ high, high = (b + c + d + e + f + g + h) + 2 ^ 8 * (c + d + e + f + g + h) +
    2 ^ 16 * (d + e + f + g + h) + 2 ^ 24 * (e + f + g + h) + 2 ^ 32 * (f + g + h) + 2 ^ 40 * (g + h) +
    2 ^ 48 * h := ⟨_, rfl⟩
  obtain ⟨low, under⟩ : ∃ low, low = a + 2 ^ 8 * (a + b) + 2 ^ 16 * (a + b + c) + 2 ^ 24 * (a + b + c + d) +
    2 ^ 32 * (a + b + c + d + e) + 2 ^ 40 * (a + b + c + d + e + f) +
    2 ^ 48 * (a + b + c + d + e + f + g) := ⟨_, rfl⟩
  have product : (a + 256 * (b + 256 * (c + 256 * (d + 256 * (e + 256 * (f + 256 * (g + 256 * (h + 256 * 0)))))))) *
      0x0101010101010101 = 2 ^ 64 * high + (2 ^ 56 * (a + b + c + d + e + f + g + h) + low) := by
    rw [carried, under]
    ring
  obtain ⟨a8, b8, c8, d8, e8, f8, g8, h8⟩ := small
  have short : low < 2 ^ 56 := by linarith
  have total : a + b + c + d + e + f + g + h < 2 ^ 8 := by linarith
  rw [product, top_of_split short total]
  ring

/-- All steps on a 64-bit word. -/
theorem weight_eq_top (small : x < 2 ^ 64) :
    bytes 8 (nibbles 8 (pairs 8 x)) * 0x0101010101010101 % 2 ^ 64 / 2 ^ 56 = weight 64 x := by
  rw [bytes_eq 8 x small, top_byte (length_byteOnes 8 x) (byteOnes_le 8 x)]
  exact (weight_eq_sum 8 x).symm

end Counting

end Popcount
