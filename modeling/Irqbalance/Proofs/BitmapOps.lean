import Irqbalance.Lib.Popcount
import Irqbalance.Model.BitmapOps
import Irqbalance.Proofs.BitmapWords
import Irqbalance.Proofs.Thermal

/-! # What the operations on bitmaps mean

Every sequence of calls computes what the same calls mean for bit vectors, as long as no bit behind the last one is set,
and sets none there. The rule of bitmap.c that such bits never matter holds for one bit and from `BITS_PER_LONG` bits
on; in between `bitmap_shift_right` moves them into the bitmap.
-/

namespace Irqbalance

open Words Popcount

variable {ρ : Type*} [DecidableEq ρ] {n : ℕ} {dst src r : ρ} {s s' : Bitmaps ρ} {x : ρ → BitVec n} {a b : Bitmap}

section Weight

theorem pairs_toNat (w : BitVec 64) :
    (w - (w >>> 1 &&& 0x5555555555555555#64)).toNat = pairs 8 w.toNat := by
  have field : (w >>> 1 &&& 0x5555555555555555#64).toNat = w.toNat / 2 &&& rep 0x55 8 := by
    rw [BitVec.toNat_and, BitVec.toNat_ushiftRight, Nat.shiftRight_eq_div_pow]
    rfl
  have below : w.toNat / 2 &&& rep 0x55 8 ≤ w.toNat := Nat.and_le_left.trans (Nat.div_le_self _ 2)
  rw [BitVec.toNat_sub_of_le (BitVec.le_def.mpr (by rw [field]; exact below)), field]
  rfl

theorem nibbles_le (k v : ℕ) : nibbles k v ≤ 2 * rep 0x33 k := by
  have first : v &&& rep 0x33 k ≤ rep 0x33 k := Nat.and_le_right
  have second : v / 4 &&& rep 0x33 k ≤ rep 0x33 k := Nat.and_le_right
  rw [nibbles]
  omega

theorem nibbles_toNat (w : BitVec 64) :
    ((w &&& 0x3333333333333333#64) + (w >>> 2 &&& 0x3333333333333333#64)).toNat = nibbles 8 w.toNat := by
  have fits := nibbles_le 8 w.toNat
  have mask : rep 0x33 8 = 0x3333333333333333 := by decide
  rw [BitVec.toNat_add, BitVec.toNat_and, BitVec.toNat_and, BitVec.toNat_ushiftRight, Nat.shiftRight_eq_div_pow]
  change (nibbles 8 w.toNat) % 2 ^ 64 = _
  exact Nat.mod_eq_of_lt (by omega)

theorem bytes_toNat {w : BitVec 64} (small : w.toNat ≤ 2 * rep 0x33 8) :
    (w + w >>> 4 &&& 0x0f0f0f0f0f0f0f0f#64).toNat = bytes 8 w.toNat := by
  have mask : rep 0x33 8 = 0x3333333333333333 := by decide
  rw [BitVec.toNat_and, BitVec.toNat_add, BitVec.toNat_ushiftRight, Nat.shiftRight_eq_div_pow,
    Nat.mod_eq_of_lt (by omega)]
  rfl

/-- The count within a register is the count of the bits. -/
theorem hweight64_eq (w : BitVec 64) : hweight64 w = weight 64 w.toNat := by
  have small := nibbles_le 8 (pairs 8 w.toNat)
  rw [← pairs_toNat, ← nibbles_toNat] at small
  rw [hweight64, BitVec.toNat_ushiftRight, BitVec.toNat_mul, bytes_toNat small, nibbles_toNat, pairs_toNat,
    Nat.shiftRight_eq_div_pow, ← weight_eq_top w.isLt]
  rfl

end Weight

section Places

/-- No bit between the last one and the end of the array is set. -/
def NoUnused (n : ℕ) (a : Bitmap) : Prop := ∀ i, n ≤ i → i < BITS_PER_LONG * bitsToLongs n → bit a i = false

/-- The bits of the variable `dst` up to the end of the array have been replaced. -/
def Stored (n : ℕ) (dst : ρ) (y : ℕ → Bool) (s s' : Bitmaps ρ) : Prop :=
  ∀ r i, bit (s' r) i = if r = dst ∧ i < BITS_PER_LONG * bitsToLongs n then y i else bit (s r) i

theorem lt_bitsToLongs {i : ℕ} : i / BITS_PER_LONG < bitsToLongs n ↔ i < BITS_PER_LONG * bitsToLongs n := by
  rw [Nat.div_lt_iff_lt_mul (by decide), Nat.mul_comm]

theorem le_bitsToLongs : n ≤ BITS_PER_LONG * bitsToLongs n := by
  simp only [bitsToLongs, BITS_PER_LONG]
  omega

theorem Stored.holds {y : ℕ → Bool} {v : BitVec n} (stored : Stored n dst y s s') (holds : ∀ r, Holds (s r) (x r))
    (same : ∀ i < n, y i = v.getLsbD i) (r : ρ) : Holds (s' r) (Function.update x dst v r) := by
  intro i bound
  rw [stored r i]
  by_cases here : r = dst
  · subst here
    rw [if_pos ⟨rfl, bound.trans_le le_bitsToLongs⟩, Function.update_self, same i bound]
  · rw [if_neg fun there => here there.1, Function.update_of_ne here, holds r i bound]

theorem Stored.clean {y : ℕ → Bool} (stored : Stored n dst y s s') (clean : ∀ r, NoUnused n (s r))
    (unset : ∀ i, n ≤ i → i < BITS_PER_LONG * bitsToLongs n → y i = false) (r : ρ) : NoUnused n (s' r) := by
  intro i behind inside
  rw [stored r i]
  split
  · exact unset i behind inside
  · exact clean r i behind inside

/-- A variable whose words up to the end of the array have been replaced. -/
theorem stored_of_words {word : ℕ → BitVec BITS_PER_LONG}
    (words : ∀ r j, s' r j = if r = dst ∧ j < bitsToLongs n then word j else s r j) :
    Stored n dst (bit word) s s' := by
  intro r i
  rw [bit, words, bit, bit]
  by_cases there : r = dst ∧ i / BITS_PER_LONG < bitsToLongs n
  · rw [if_pos there, if_pos ⟨there.1, lt_bitsToLongs.mp there.2⟩]
  · rw [if_neg there, if_neg fun here => there ⟨here.1, lt_bitsToLongs.mpr here.2⟩]

theorem Stored.congr {y y' : ℕ → Bool} (stored : Stored n dst y s s')
    (same : ∀ i < BITS_PER_LONG * bitsToLongs n, y i = y' i) : Stored n dst y' s s' := by
  intro r i
  rw [stored r i]
  split
  · rename_i there
    exact same i there.2
  · rfl

end Places

section Stores

variable (positive : 0 < n)

theorem bit_lowBits {left i : ℕ} {word : BitVec BITS_PER_LONG} (few : left ≤ BITS_PER_LONG) :
    (word &&& lowBits left).getLsbD i = (word.getLsbD i && decide (i < left)) := by
  rw [BitVec.getLsbD_and, getLsbD_lowBits few]

/-- The mask keeps the bits of the last word that belong to the bitmap. -/
theorem getLsbD_last {i : ℕ} (word : BitVec BITS_PER_LONG) (last : i / BITS_PER_LONG + 1 = bitsToLongs n) :
    (word &&& BITMAP_LAST_WORD_MASK n).getLsbD (i % BITS_PER_LONG) =
      (word.getLsbD (i % BITS_PER_LONG) && decide (i < n)) := by
  have inside : i % BITS_PER_LONG < BITS_PER_LONG := Nat.mod_lt i (by decide)
  have part : n % BITS_PER_LONG < BITS_PER_LONG := Nat.mod_lt n (by decide)
  simp only [bitsToLongs, BITS_PER_LONG] at *
  unfold BITMAP_LAST_WORD_MASK
  split
  · rename_i some_left
    rw [bit_lowBits part.le, decide_eq_decide.mpr]
    simp only [BITS_PER_LONG] at some_left ⊢
    omega
  · rename_i whole
    rw [BitVec.getLsbD_and, BitVec.getLsbD_allOnes, decide_eq_true inside]
    simp only [BITS_PER_LONG] at whole
    rw [decide_eq_true (by omega)]

include positive

theorem bitsToLongs_pos : 0 < bitsToLongs n := by
  simp only [bitsToLongs, BITS_PER_LONG]
  omega

theorem bitsToLongs_small (small : n ≤ BITS_PER_LONG) : bitsToLongs n = 1 := by
  simp only [bitsToLongs, BITS_PER_LONG] at *
  omega

theorem put_small {v : ℕ → BitVec BITS_PER_LONG} {j : ℕ} (small : n ≤ BITS_PER_LONG) :
    put dst 0 (v 0) s r j = if r = dst ∧ j < bitsToLongs n then v j else s r j := by
  rw [bitsToLongs_small positive small, put]
  by_cases first : r = dst ∧ j = 0
  · rw [if_pos first, if_pos ⟨first.1, by omega⟩, first.2]
  · rw [if_neg first, if_neg fun below => first ⟨below.1, by omega⟩]

/-- A loop over all words that reads no word below its counter. -/
theorem stored_eachWord {word : Bitmaps ρ → ℕ → BitVec BITS_PER_LONG}
    (reads : ∀ s s' k, (∀ r, ∀ j ≥ k, s r j = s' r j) → word s k = word s' k) :
    Stored n dst (bit (word s)) s (eachWord n dst word s) := by
  apply stored_of_words
  intro r j
  unfold eachWord
  split
  · rename_i small
    exact put_small positive small
  · exact ascend_apply reads

theorem stored_bitmapZero : Stored n dst (fun _ => false) s (bitmapZero n dst s) := by
  have zero : bit (fun _ => (0 : BitVec BITS_PER_LONG)) = fun _ => false := by
    funext i
    exact BitVec.getLsbD_zero
  rw [← zero]
  apply stored_of_words
  intro r j
  unfold bitmapZero
  split
  · rename_i small
    exact put_small (v := fun _ => 0) positive small
  · rw [setWords]
    simp only [Nat.zero_le, true_and, Nat.zero_add]

theorem stored_bitmapFill : Stored n dst (fun i => decide (i < n)) s (bitmapFill n dst s) := by
  have longs := bitsToLongs_pos positive
  have words (r : ρ) (j : ℕ) : bitmapFill n dst s r j = if r = dst ∧ j < bitsToLongs n then
      if j + 1 = bitsToLongs n then BITMAP_LAST_WORD_MASK n else BitVec.allOnes BITS_PER_LONG
      else s r j := by
    rw [bitmapFill, put]
    by_cases here : r = dst
    · subst here
      by_cases last : j = bitsToLongs n - 1
      · rw [if_pos ⟨rfl, last⟩, if_pos ⟨rfl, by omega⟩, if_pos (by omega)]
      · rw [if_neg fun there => last there.2]
        split
        · rw [setWords]
          by_cases inside : j < bitsToLongs n
          · rw [if_pos ⟨rfl, by omega, by omega⟩, if_pos ⟨rfl, inside⟩, if_neg (by omega)]
          · rw [if_neg (by omega), if_neg fun there => inside there.2]
        · rw [if_neg (by omega)]
    · rw [if_neg fun there => here there.1]
      conv_rhs => rw [if_neg fun there => here there.1]
      split
      · rw [setWords, if_neg fun there => here there.1]
      · rfl
  refine (stored_of_words words).congr fun i inside => ?_
  have within : i % BITS_PER_LONG < BITS_PER_LONG := Nat.mod_lt i (by decide)
  rw [bit]
  split
  · rename_i last
    rw [← BitVec.allOnes_and (x := BITMAP_LAST_WORD_MASK n), getLsbD_last _ last, BitVec.getLsbD_allOnes,
      decide_eq_true within, Bool.true_and]
  · rename_i other
    rw [BitVec.getLsbD_allOnes, decide_eq_true within, decide_eq_true]
    simp only [bitsToLongs, BITS_PER_LONG] at *
    omega

theorem stored_bitmapComplement :
    Stored n dst (fun i => decide (i < n) && !bit (s src) i) s (bitmapComplement n dst src s) := by
  have words (r : ρ) (j : ℕ) : bitmapComplement n dst src s r j = if r = dst ∧ j < bitsToLongs n then
      if j + 1 = bitsToLongs n then ~~~s src j &&& BITMAP_LAST_WORD_MASK n else ~~~s src j
      else s r j := by
    unfold bitmapComplement
    split
    · rename_i small
      rw [bitsToLongs_small positive small, put]
      by_cases first : r = dst ∧ j = 0
      · rw [if_pos first, if_pos ⟨first.1, by omega⟩, if_pos (by omega), first.2]
      · rw [if_neg first, if_neg fun below => first ⟨below.1, by omega⟩]
    · dsimp only
      have loop (r : ρ) (j : ℕ) : ascend dst (fun (s : Bitmaps ρ) k => ~~~s src k) (n / BITS_PER_LONG) s r j =
          if r = dst ∧ j < n / BITS_PER_LONG then ~~~s src j else s r j :=
        ascend_apply fun s s' k same => congrArg _ (same src k le_rfl)
      split
      · rename_i some_left
        have longs : bitsToLongs n = n / BITS_PER_LONG + 1 := by
          simp only [bitsToLongs, BITS_PER_LONG] at *
          omega
        rw [put, loop, loop, if_neg fun below : src = dst ∧ _ => Nat.lt_irrefl _ below.2, longs]
        by_cases last : r = dst ∧ j = n / BITS_PER_LONG
        · rw [if_pos last, if_pos ⟨last.1, by omega⟩, if_pos (by omega), last.2]
        · rw [if_neg last]
          by_cases inside : r = dst ∧ j < n / BITS_PER_LONG
          · rw [if_pos inside, if_pos ⟨inside.1, by omega⟩, if_neg (by omega)]
          · rw [if_neg inside, if_neg]
            rintro ⟨here, below⟩
            rcases Nat.lt_succ_iff_lt_or_eq.mp below with low | same
            · exact inside ⟨here, low⟩
            · exact last ⟨here, same⟩
      · rename_i whole
        have longs : bitsToLongs n = n / BITS_PER_LONG := by
          simp only [bitsToLongs, BITS_PER_LONG] at *
          omega
        rw [loop, longs, BITMAP_LAST_WORD_MASK, if_neg whole, BitVec.and_allOnes, ite_self]
  refine (stored_of_words words).congr fun i inside => ?_
  have within : i % BITS_PER_LONG < BITS_PER_LONG := Nat.mod_lt i (by decide)
  rw [bit]
  split
  · rename_i last
    rw [getLsbD_last _ last, BitVec.getLsbD_not, decide_eq_true within, Bool.true_and, Bool.and_comm, bit]
  · rename_i other
    rw [BitVec.getLsbD_not, decide_eq_true within, Bool.true_and, decide_eq_true, Bool.true_and, bit]
    simp only [bitsToLongs, BITS_PER_LONG] at *
    omega

omit positive

/-- What is cut from the last word is what is behind the last place. -/
theorem getLsbD_top {i k : ℕ} {word : BitVec BITS_PER_LONG} {top : Prop} [Decidable top] (inside : k < bitsToLongs n)
    (within : i < BITS_PER_LONG) (last : top ↔ n % BITS_PER_LONG ≠ 0 ∧ k = bitsToLongs n - 1) :
    (if top then word &&& lowBits (n % BITS_PER_LONG) else word).getLsbD i =
      (decide (k * BITS_PER_LONG + i < n) && word.getLsbD i) := by
  have part : n % BITS_PER_LONG < BITS_PER_LONG := Nat.mod_lt n (by decide)
  split
  · rename_i here
    have last := last.mp here
    rw [bit_lowBits part.le, Bool.and_comm]
    congr 1
    apply decide_eq_decide.mpr
    simp only [bitsToLongs, BITS_PER_LONG] at *
    omega
  · rename_i other
    rw [last] at other
    have before : k * BITS_PER_LONG + i < n := by
      simp only [bitsToLongs, BITS_PER_LONG] at *
      omega
    rw [decide_eq_true before, Bool.true_and]

theorem shiftRightWord_congr {shift k : ℕ} (same : ∀ j ≥ k, a j = b j) :
    shiftRightWord n shift a k = shiftRightWord n shift b k := by
  unfold shiftRightWord
  dsimp only
  rw [same (shift / BITS_PER_LONG + k) (Nat.le_add_left _ _),
    same (shift / BITS_PER_LONG + k + 1) (Nat.le_succ_of_le (Nat.le_add_left _ _))]

/-- The lower bits of the word above and the upper bits of a word make one word. -/
theorem getLsbD_borrow {lower upper : BitVec BITS_PER_LONG} {rem i : ℕ} (part : rem < BITS_PER_LONG)
    (within : i < BITS_PER_LONG) : (upper <<< (BITS_PER_LONG - rem) ||| lower >>> rem).getLsbD i =
      if i + rem < BITS_PER_LONG then lower.getLsbD (i + rem) else upper.getLsbD (i + rem - BITS_PER_LONG) := by
  rw [BitVec.getLsbD_or, BitVec.getLsbD_shiftLeft, BitVec.getLsbD_ushiftRight, decide_eq_true within, Bool.true_and,
    Nat.add_comm rem]
  split
  · rw [decide_eq_true (by omega), Bool.not_true, Bool.false_and, Bool.false_or]
  · rw [BitVec.getLsbD_of_ge lower _ (by omega), Bool.or_false, decide_eq_false (by omega), Bool.not_false,
      Bool.true_and, show i - (BITS_PER_LONG - rem) = i + rem - BITS_PER_LONG by omega]

theorem bit_at {k i : ℕ} (within : i < BITS_PER_LONG) : bit a (k * BITS_PER_LONG + i) = (a k).getLsbD i := by
  simp only [BITS_PER_LONG] at *
  rw [bit, show (k * 64 + i) / 64 = k by omega, show (k * 64 + i) % 64 = i by omega]

/-- The bits of a word come from above by the shift, as far as there are any. -/
theorem getLsbD_shiftRightWord {shift i k : ℕ} (within : i < BITS_PER_LONG)
    (inside : k + shift / BITS_PER_LONG < bitsToLongs n) :
    (shiftRightWord n shift a k).getLsbD i =
      (decide (k * BITS_PER_LONG + i + shift < n) && bit a (k * BITS_PER_LONG + i + shift)) := by
  have part : shift % BITS_PER_LONG < BITS_PER_LONG := Nat.mod_lt _ (by decide)
  unfold shiftRightWord
  dsimp only
  rw [getLsbD_top (Nat.lt_of_le_of_lt (Nat.le_add_right _ _) inside) within Iff.rfl, getLsbD_borrow part within]
  have place : (shift / BITS_PER_LONG + k) * BITS_PER_LONG + (i + shift % BITS_PER_LONG) =
      k * BITS_PER_LONG + i + shift := by
    simp only [BITS_PER_LONG]
    omega
  have earlier : k * BITS_PER_LONG + i + shift < n → k * BITS_PER_LONG + i < n := by omega
  have absorb (y : Bool) : (decide (k * BITS_PER_LONG + i < n) && (decide (k * BITS_PER_LONG + i + shift < n) && y)) =
      (decide (k * BITS_PER_LONG + i + shift < n) && y) := by
    by_cases shown : k * BITS_PER_LONG + i + shift < n
    · rw [decide_eq_true shown, decide_eq_true (earlier shown), Bool.true_and]
    · rw [decide_eq_false shown, Bool.false_and, Bool.and_false]
  split
  · rename_i low
    rw [getLsbD_top (Nat.add_comm k _ ▸ inside) low Iff.rfl, place, absorb, ← place, bit_at low]
  · rename_i high
    have some_rem : shift % BITS_PER_LONG ≠ 0 := by omega
    have low : i + shift % BITS_PER_LONG - BITS_PER_LONG < BITS_PER_LONG := by omega
    have place : (shift / BITS_PER_LONG + k + 1) * BITS_PER_LONG + (i + shift % BITS_PER_LONG - BITS_PER_LONG) =
        k * BITS_PER_LONG + i + shift := by
      rw [← place, Nat.succ_mul]
      omega
    split
    · rename_i none
      have behind : ¬ k * BITS_PER_LONG + i + shift < n := by
        have above := none.resolve_left some_rem
        simp only [bitsToLongs, BITS_PER_LONG] at *
        omega
      rw [decide_eq_false behind, Bool.false_and, show (0 : BitVec BITS_PER_LONG) = 0#_ from rfl, BitVec.getLsbD_zero,
        Bool.and_false]
    · rename_i some_word
      rw [getLsbD_top (by omega) low and_comm, place, absorb, ← place, bit_at low]

theorem stored_bitmapShiftRight {shift : ℕ} (large : BITS_PER_LONG < n) (short : shift < n) :
    Stored n dst (fun i => decide (i + shift < n) && bit (s src) (i + shift)) s
      (bitmapShiftRight n dst src shift s) := by
  have words (r : ρ) (j : ℕ) : bitmapShiftRight n dst src shift s r j = if r = dst ∧ j < bitsToLongs n then
      if j < bitsToLongs n - shift / BITS_PER_LONG then shiftRightWord n shift (s src) j else 0
      else s r j := by
    have off : shift / BITS_PER_LONG ≤ bitsToLongs n := by
      simp only [bitsToLongs, BITS_PER_LONG]
      omega
    have limit := Nat.sub_add_cancel off
    rw [bitmapShiftRight, if_neg (by omega), setWords,
      ascend_apply (f := fun s => shiftRightWord n shift (s src)) fun s s' k same => shiftRightWord_congr (same src)]
    rw [limit]
    generalize shift / BITS_PER_LONG = words at off limit ⊢
    by_cases here : r = dst
    · subst here
      simp only [true_and]
      split_ifs <;> first | rfl | omega
    · rw [if_neg fun there => here there.1, if_neg fun there => here there.1, if_neg fun there => here there.1]
  refine (stored_of_words words).congr fun i inside => ?_
  have within : i % BITS_PER_LONG < BITS_PER_LONG := Nat.mod_lt i (by decide)
  have place : i / BITS_PER_LONG * BITS_PER_LONG + i % BITS_PER_LONG = i := Nat.div_add_mod' i _
  rw [bit]
  split
  · rename_i low
    rw [getLsbD_shiftRightWord within (Nat.add_lt_of_lt_sub low), place]
  · rename_i high
    have behind : ¬ i + shift < n := by
      simp only [bitsToLongs, BITS_PER_LONG] at *
      omega
    rw [decide_eq_false behind, Bool.false_and]
    exact BitVec.getLsbD_zero

/-- Where source and destination are one variable, the call is the shift in place. -/
theorem bitmapShiftLeftInto_self {shift : ℕ} (large : BITS_PER_LONG < n) :
    bitmapShiftLeftInto n dst dst shift s = Function.update s dst (bitmapShiftLeft shift n (s dst)) := by
  rw [bitmapShiftLeftInto, if_neg (not_le.mpr large)]
  dsimp only
  rw [descend_eq_moveUp (shiftLeftWord shift n)]
  funext r k
  by_cases same : r = dst
  · subst same
    rw [setWords, Function.update_self, Function.update_self, bitmapShiftLeft, Nat.zero_add]
    simp only [true_and, Nat.zero_le]
  · rw [setWords, if_neg fun there => same there.1, Function.update_of_ne same, Function.update_of_ne same]

theorem stored_bitmapShiftLeft {shift : ℕ} (large : BITS_PER_LONG < n) (short : shift < n) :
    Stored n dst (fun i => decide (i < n) && (decide (shift ≤ i) && bit (s src) (i - shift))) s
      (bitmapShiftLeftInto n dst src shift s) := by
  have words (r : ρ) (j : ℕ) : bitmapShiftLeftInto n dst src shift s r j = if r = dst ∧ j < bitsToLongs n then
      if j < shift / BITS_PER_LONG then 0 else shiftLeftWord shift n (s src) (j - shift / BITS_PER_LONG)
      else s r j := by
    have off : shift / BITS_PER_LONG ≤ bitsToLongs n := by
      simp only [bitsToLongs, BITS_PER_LONG]
      omega
    rw [bitmapShiftLeftInto, if_neg (by omega), setWords,
      descend_apply (f := fun s => shiftLeftWord shift n (s src)) fun s s' k same => shiftLeftWord_congr (same src)]
    by_cases here : r = dst
    · subst here
      simp only [true_and]
      split_ifs <;> first | rfl | omega
    · rw [if_neg fun there => here there.1, if_neg fun there => here there.1, if_neg fun there => here there.1]
  refine (stored_of_words words).congr fun i inside => ?_
  have within : i % BITS_PER_LONG < BITS_PER_LONG := Nat.mod_lt i (by decide)
  rw [bit]
  split
  · rename_i low
    have below : ¬ shift ≤ i := by
      simp only [BITS_PER_LONG] at *
      omega
    rw [decide_eq_false below, Bool.false_and, Bool.and_false]
    exact BitVec.getLsbD_zero
  · rename_i high
    have place : (i / BITS_PER_LONG - shift / BITS_PER_LONG + shift / BITS_PER_LONG) * BITS_PER_LONG +
        i % BITS_PER_LONG = i := by
      rw [Nat.sub_add_cancel (by omega)]
      exact Nat.div_add_mod' i _
    by_cases shown : i < n
    · rw [getLsbD_shiftLeftWord within (by rw [place]; exact shown), decide_eq_true shown, Bool.true_and]
      simp only [BITS_PER_LONG] at *
      rw [show (i / 64 - shift / 64) * 64 + i % 64 - shift % 64 = i - shift by omega]
      congr 1
      apply decide_eq_decide.mpr
      omega
    · unfold shiftLeftWord
      dsimp only
      rw [getLsbD_top (lt_bitsToLongs.mpr inside |>.trans_eq' (by omega)) within Iff.rfl, place, decide_eq_false shown,
        Bool.false_and, Bool.false_and]

theorem getLsbD_mask {nr i : ℕ} (within : i < BITS_PER_LONG) :
    (BITOP_MASK nr).getLsbD i = decide (i = nr % BITS_PER_LONG) := by
  have one : (1 : BitVec BITS_PER_LONG) = BitVec.twoPow BITS_PER_LONG 0 := rfl
  rw [BITOP_MASK, BitVec.getLsbD_shiftLeft, decide_eq_true within, Bool.true_and, one, BitVec.getLsbD_twoPow]
  by_cases same : i = nr % BITS_PER_LONG
  · rw [decide_eq_true same, decide_eq_false (by omega), decide_eq_true (p := 0 = i - nr % BITS_PER_LONG) (by omega)]
    rfl
  · rw [decide_eq_false same]
    by_cases below : i < nr % BITS_PER_LONG
    · rw [decide_eq_true below]
      rfl
    · rw [decide_eq_false (p := 0 = i - nr % BITS_PER_LONG) (by omega), Bool.and_false, Bool.and_false]

theorem stored_bitop {nr : ℕ} {op : BitVec BITS_PER_LONG → BitVec BITS_PER_LONG → BitVec BITS_PER_LONG}
    {g : Bool → Bool → Bool} (each : ∀ v w i, i < BITS_PER_LONG → (op v w).getLsbD i = g (v.getLsbD i) (w.getLsbD i))
    (unmasked : ∀ y, g y false = y) (known : nr < n) :
    Stored n dst (fun i => g (bit (s dst) i) (decide (i = nr))) s (bitop nr dst op s) := by
  intro r i
  have within : i % BITS_PER_LONG < BITS_PER_LONG := Nat.mod_lt i (by decide)
  rw [bit, bitop, put]
  by_cases here : r = dst ∧ i / BITS_PER_LONG = nr / BITS_PER_LONG
  · obtain ⟨rfl, word⟩ := here
    have inside : i < BITS_PER_LONG * bitsToLongs n := by
      simp only [bitsToLongs, BITS_PER_LONG] at *
      omega
    rw [if_pos ⟨rfl, word⟩, if_pos ⟨rfl, inside⟩, each _ _ _ within, getLsbD_mask within, ← word]
    congr 1
    apply decide_eq_decide.mpr
    simp only [BITS_PER_LONG] at *
    omega
  · rw [if_neg here]
    split
    · rename_i there
      have other : i ≠ nr := fun same => here ⟨there.1, same ▸ rfl⟩
      obtain ⟨rfl, -⟩ := there
      dsimp only
      rw [decide_eq_false other, unmasked, bit]
    · rfl

end Stores

section Tests

variable {c : Bitmap}

theorem word_zero_iff {k : ℕ} : c k = 0 ↔ ∀ i, i / BITS_PER_LONG = k → bit c i = false := by
  constructor
  · rintro zero i rfl
    rw [bit, zero]
    exact BitVec.getLsbD_zero
  · intro unset
    apply BitVec.eq_of_getLsbD_eq
    intro i inside
    rw [← bit_at inside, unset _ (by simp only [BITS_PER_LONG] at *; omega)]
    exact BitVec.getLsbD_zero.symm

theorem last_zero_iff {k : ℕ} (last : k + 1 = bitsToLongs n) : c k &&& BITMAP_LAST_WORD_MASK n = 0 ↔
    ∀ i < n, i / BITS_PER_LONG = k → bit c i = false := by
  constructor
  · rintro zero i bound rfl
    have kept := getLsbD_last (c (i / BITS_PER_LONG)) last
    rw [zero, decide_eq_true bound, Bool.and_true] at kept
    exact kept.symm.trans BitVec.getLsbD_zero
  · intro unset
    apply BitVec.eq_of_getLsbD_eq
    intro i inside
    have word : (k * BITS_PER_LONG + i) / BITS_PER_LONG = k := by
      simp only [BITS_PER_LONG] at *
      omega
    have place : (k * BITS_PER_LONG + i) % BITS_PER_LONG = i := by
      simp only [BITS_PER_LONG] at *
      omega
    have kept := getLsbD_last (c k) (word.symm ▸ last : (k * BITS_PER_LONG + i) / BITS_PER_LONG + 1 = _)
    rw [place] at kept
    rw [kept, show (0 : BitVec BITS_PER_LONG) = 0#_ from rfl, BitVec.getLsbD_zero]
    by_cases bound : k * BITS_PER_LONG + i < n
    · rw [← bit_at inside, unset _ bound word, Bool.false_and]
    · rw [decide_eq_false bound, Bool.and_false]

/-- The loop over the full words and the test of the last one look at the bits of the bitmap. -/
theorem words_zero_iff : ((∀ k < n / BITS_PER_LONG, c k = 0) ∧
    (n % BITS_PER_LONG = 0 ∨ c (n / BITS_PER_LONG) &&& BITMAP_LAST_WORD_MASK n = 0)) ↔ ∀ i < n, bit c i = false := by
  constructor
  · rintro ⟨full, last⟩ i bound
    by_cases low : i / BITS_PER_LONG < n / BITS_PER_LONG
    · exact word_zero_iff.mp (full _ low) i rfl
    · simp only [BITS_PER_LONG] at *
      have word : i / 64 = n / 64 := by omega
      have longs : n / 64 + 1 = bitsToLongs n := by
        simp only [bitsToLongs, BITS_PER_LONG]
        omega
      exact (last_zero_iff longs).mp (last.resolve_left (by omega)) i bound word
  · intro unset
    constructor
    · intro k low
      refine word_zero_iff.mpr fun i word => unset i ?_
      simp only [BITS_PER_LONG] at *
      omega
    · by_cases whole : n % BITS_PER_LONG = 0
      · exact .inl whole
      · right
        refine (last_zero_iff ?_).mpr fun i bound _ => unset i bound
        simp only [bitsToLongs, BITS_PER_LONG] at *
        omega

/-- The test of the only word. -/
theorem first_zero_iff (positive : 0 < n) (small : n ≤ BITS_PER_LONG) :
    c 0 &&& BITMAP_LAST_WORD_MASK n = 0 ↔ ∀ i < n, bit c i = false := by
  rw [last_zero_iff (bitsToLongs_small positive small).symm]
  refine forall_congr' fun i => forall_congr' fun bound => ?_
  exact imp_iff_right (Nat.div_eq_of_lt (bound.trans_le small))

theorem bitmapEmpty_iff (positive : 0 < n) : bitmapEmpty n a = true ↔ ∀ i < n, bit a i = false := by
  unfold bitmapEmpty
  split
  · rename_i small
    rw [beq_iff_eq, first_zero_iff positive small]
  · rw [bitmapEmptyWords, Bool.and_eq_true, decide_eq_true_iff, Bool.or_eq_true, beq_iff_eq, beq_iff_eq,
      words_zero_iff]

theorem bit_not {i : ℕ} : bit (fun k => ~~~a k) i = !bit a i := by
  rw [bit, BitVec.getLsbD_not, decide_eq_true (Nat.mod_lt i (by decide)), Bool.true_and, bit]

theorem bitmapFull_iff (positive : 0 < n) : bitmapFull n a = true ↔ ∀ i < n, bit a i = true := by
  have shown : bitmapFull n a = bitmapEmpty n fun k => ~~~a k := rfl
  rw [shown, bitmapEmpty_iff positive]
  simp only [bit_not, Bool.not_eq_false']

theorem bitmapIntersects_iff (positive : 0 < n) :
    bitmapIntersects n a b = true ↔ ∃ i < n, (bit a i && bit b i) = true := by
  have shown : bitmapIntersects n a b = !bitmapEmpty n fun k => a k &&& b k := by
    unfold bitmapIntersects bitmapEmpty
    split
    · rfl
    · rw [bitmapIntersectsWords, bitmapEmptyWords, Bool.not_and, Bool.not_or]
      congr 1
      rw [← decide_not]
      push Not
      rfl
  rw [shown, Bool.not_eq_true', ← Bool.not_eq_true, bitmapEmpty_iff positive]
  push Not
  refine exists_congr fun i => and_congr_right fun _ => ?_
  rw [bit, BitVec.getLsbD_and, Bool.ne_false_iff, bit, bit]

theorem bitmapEquals_iff (positive : 0 < n) :
    bitmapEquals n a b = true ↔ ∀ i < n, bit a i = bit b i := by
  have shown : bitmapEquals n a b = bitmapEmpty n fun k => a k ^^^ b k := by
    unfold bitmapEquals bitmapEmpty
    split
    · rfl
    · have same (k : ℕ) : a k = b k ↔ a k ^^^ b k = 0 := BitVec.xor_eq_zero_iff.symm
      rw [bitmapEqual, bitmapEmptyWords]
      simp only [same]
      by_cases whole : n % BITS_PER_LONG = 0
      · rw [whole]
        rfl
      · rw [BITMAP_LAST_WORD_MASK, if_pos whole]
  rw [shown, bitmapEmpty_iff positive]
  refine forall_congr' fun i => imp_congr_right fun _ => ?_
  rw [bit, BitVec.getLsbD_xor, bne_eq_false_iff_eq, bit, bit]

/-- The bits below `lim` words, counted word by word. -/
theorem sum_hweight64 (lim : ℕ) : ((List.range lim).map fun k => hweight64 (a k)).sum =
    ((List.range (lim * BITS_PER_LONG)).filter (bit a)).length := by
  induction lim with
  | zero => rfl
  | succ lim ih =>
    rw [List.range_succ, List.map_append, List.sum_append, ih, Nat.succ_mul, List.range_add, List.filter_append,
      List.length_append, List.filter_map, List.length_map]
    congr 1
    rw [List.map_singleton, List.sum_singleton, hweight64_eq, weight]
    congr 1
    apply List.filter_congr
    intro i inside
    exact (bit_at (List.mem_range.mp inside)).symm

/-- The first bits of a word, counted. -/
theorem hweight64_low {k left : ℕ} (few : left ≤ BITS_PER_LONG) : hweight64 (a k &&& lowBits left) =
    ((List.range left).filter fun i => bit a (k * BITS_PER_LONG + i)).length := by
  have whole : List.range 64 = List.range left ++ (List.range (64 - left)).map (left + ·) := by
    rw [← List.range_add, Nat.add_sub_cancel' few]
  rw [hweight64_eq, weight, whole, List.filter_append, List.length_append]
  have none : ((List.range (64 - left)).map (left + ·)).filter (a k &&& lowBits left).toNat.testBit = [] := by
    rw [List.filter_eq_nil_iff]
    intro i later
    obtain ⟨j, -, rfl⟩ := List.mem_map.mp later
    change ¬ (a k &&& lowBits left).getLsbD (left + j) = true
    rw [bit_lowBits few, decide_eq_false (by omega), Bool.and_false]
    exact Bool.false_ne_true
  rw [none, List.length_nil, Nat.add_zero]
  congr 1
  apply List.filter_congr
  intro i inside
  have inside := List.mem_range.mp inside
  change (a k &&& lowBits left).getLsbD i = _
  rw [bit_lowBits few, decide_eq_true inside, Bool.and_true, bit_at (inside.trans_le few)]

/-- The weight is the number of bits set. -/
theorem bitmapWeight_eq (positive : 0 < n) : bitmapWeight n a = ((List.range n).filter (bit a)).length := by
  have part : n % BITS_PER_LONG ≤ BITS_PER_LONG := (Nat.mod_lt n (by decide)).le
  have words : bitmapWeightWords n a = ((List.range n).filter (bit a)).length := by
    rw [bitmapWeightWords, sum_hweight64]
    split
    · rename_i some_left
      rw [BITMAP_LAST_WORD_MASK, if_pos some_left, hweight64_low part]
      conv_rhs => rw [← Nat.div_add_mod' n BITS_PER_LONG, List.range_add, List.filter_append, List.length_append,
        List.filter_map, List.length_map]
      rfl
    · rename_i whole
      rw [show n / BITS_PER_LONG * BITS_PER_LONG = n from Nat.div_mul_cancel (Nat.dvd_of_mod_eq_zero (by omega))]
  unfold bitmapWeight
  split
  · rename_i small
    rw [← words, bitmapWeightWords]
    split
    · rename_i some_left
      have first : n / BITS_PER_LONG = 0 := by
        simp only [BITS_PER_LONG] at *
        omega
      rw [first, List.range_zero, List.map_nil, List.sum_nil, Nat.zero_add]
    · rename_i whole
      have one : n / BITS_PER_LONG = 1 := by
        simp only [BITS_PER_LONG] at *
        omega
      rw [one, BITMAP_LAST_WORD_MASK, if_neg whole, BitVec.and_allOnes, List.range_one, List.map_singleton,
        List.sum_singleton]
  · exact words

end Tests

section Results

variable {y z : BitVec n}

theorem holds_zero_iff (holds : Holds a y) : (∀ i < n, bit a i = false) ↔ y = 0 := by
  constructor
  · intro unset
    apply BitVec.eq_of_getLsbD_eq
    intro i bound
    rw [← holds i bound, unset i bound]
    exact BitVec.getLsbD_zero.symm
  · rintro rfl i bound
    rw [holds i bound]
    exact BitVec.getLsbD_zero

theorem holds_full_iff (holds : Holds a y) : (∀ i < n, bit a i = true) ↔ y = BitVec.allOnes n := by
  constructor
  · intro set
    apply BitVec.eq_of_getLsbD_eq
    intro i bound
    rw [← holds i bound, set i bound, BitVec.getLsbD_allOnes, decide_eq_true bound]
  · rintro rfl i bound
    rw [holds i bound, BitVec.getLsbD_allOnes, decide_eq_true bound]

theorem holds_eq_iff (first : Holds a y) (second : Holds b z) : (∀ i < n, bit a i = bit b i) ↔ y = z := by
  constructor
  · intro same
    apply BitVec.eq_of_getLsbD_eq
    intro i bound
    rw [← first i bound, same i bound, second i bound]
  · rintro rfl i bound
    rw [first i bound, second i bound]

theorem holds_and_iff (first : Holds a y) (second : Holds b z) :
    (∃ i < n, (bit a i && bit b i) = true) ↔ y &&& z ≠ 0 := by
  have both : Holds (fun k => a k &&& b k) (y &&& z) := by
    intro i bound
    rw [BitVec.getLsbD_and, ← first i bound, ← second i bound, bit, BitVec.getLsbD_and, bit, bit]
  rw [Ne, ← holds_zero_iff both]
  push Not
  refine exists_congr fun i => and_congr_right fun bound => ?_
  rw [Bool.ne_false_iff, both i bound, BitVec.getLsbD_and, first i bound, second i bound]

theorem holds_weight (holds : Holds a y) : ((List.range n).filter (bit a)).length = popcount n y.toNat := by
  rw [popcount_eq _ _ y.isLt]
  congr 1
  apply List.filter_congr
  intro i inside
  exact holds i (List.mem_range.mp inside)

theorem getLsbD_zero_of_and {w : BitVec BITS_PER_LONG} {nr : ℕ} :
    w &&& BITOP_MASK nr = 0 ↔ w.getLsbD (nr % BITS_PER_LONG) = false := by
  have within : nr % BITS_PER_LONG < BITS_PER_LONG := Nat.mod_lt nr (by decide)
  constructor
  · intro zero
    have kept := congrArg (·.getLsbD (nr % BITS_PER_LONG)) zero
    rw [BitVec.getLsbD_and, getLsbD_mask within, decide_eq_true rfl, Bool.and_true] at kept
    exact kept.trans BitVec.getLsbD_zero
  · intro unset
    apply BitVec.eq_of_getLsbD_eq
    intro i inside
    rw [BitVec.getLsbD_and, getLsbD_mask inside]
    refine Eq.trans ?_ BitVec.getLsbD_zero.symm
    by_cases here : i = nr % BITS_PER_LONG
    · rw [here, unset, Bool.false_and]
    · rw [decide_eq_false here, Bool.and_false]

omit [DecidableEq ρ] in
theorem oldBit_eq {nr : ℕ} : oldBit nr dst s = bit (s dst) nr := by
  apply Bool.eq_iff_iff.mpr
  rw [oldBit, bne_iff_ne, Ne, getLsbD_zero_of_and, Bool.not_eq_false, bit]

omit [DecidableEq ρ] in
theorem testBitIn_eq {nr : ℕ} : testBitIn nr dst s = bit (s dst) nr := by
  have place : nr &&& (BITS_PER_LONG - 1) = nr % BITS_PER_LONG := Nat.and_two_pow_sub_one_eq_mod nr 6
  rw [testBitIn, place, bit]
  generalize s dst (nr / BITS_PER_LONG) = w
  have first : (w >>> (nr % BITS_PER_LONG)).getLsbD 0 = w.getLsbD (nr % BITS_PER_LONG) := by
    rw [BitVec.getLsbD_ushiftRight, Nat.add_zero]
  rw [← first, BitVec.and_comm]
  generalize w >>> (nr % BITS_PER_LONG) = v
  apply Bool.eq_iff_iff.mpr
  rw [beq_iff_eq, ← BitVec.toNat_inj, BitVec.toNat_and, BitVec.getLsbD, Nat.testBit_zero, decide_eq_true_iff]
  change v.toNat &&& 1 = 1 ↔ _
  rw [Nat.and_one_is_mod]

end Results

section Calls

variable {op : BitmapOp ρ}

/-- The shift count and the number of the bit are below the number of bits. -/
def BitmapOp.Defined (n : ℕ) : BitmapOp ρ → Prop
  | .shiftRight _ _ k => k < n
  | .shiftLeft _ _ k => k < n
  | .setBit nr _ => nr < n
  | .clearBit nr _ => nr < n
  | .changeBit nr _ => nr < n
  | .testAndSetBit nr _ => nr < n
  | .testAndClearBit nr _ => nr < n
  | .testAndChangeBit nr _ => nr < n
  | .testBit nr _ => nr < n
  | _ => True

/-- The variable that is written, and its bits up to the end of the array. -/
def BitmapOp.stores (n : ℕ) (op : BitmapOp ρ) (s : Bitmaps ρ) : Option (ρ × (ℕ → Bool)) :=
  match op with
  | .zero dst => some (dst, fun _ => false)
  | .fill dst => some (dst, fun i => decide (i < n))
  | .copy dst src => some (dst, bit (s src))
  | .and dst src1 src2 => some (dst, fun i => bit (s src1) i && bit (s src2) i)
  | .or dst src1 src2 => some (dst, fun i => bit (s src1) i || bit (s src2) i)
  | .xor dst src1 src2 => some (dst, fun i => bit (s src1) i ^^ bit (s src2) i)
  | .andnot dst src1 src2 => some (dst, fun i => bit (s src1) i && !bit (s src2) i)
  | .complement dst src => some (dst, fun i => decide (i < n) && !bit (s src) i)
  -- the only word is shifted as a whole
  | .shiftRight dst src k =>
    some (dst, fun i => decide (i + k < if n ≤ BITS_PER_LONG then BITS_PER_LONG else n) && bit (s src) (i + k))
  | .shiftLeft dst src k => some (dst, fun i => decide (i < n) && (decide (k ≤ i) && bit (s src) (i - k)))
  | .setBit nr addr => some (addr, fun i => bit (s addr) i || decide (i = nr))
  | .clearBit nr addr => some (addr, fun i => bit (s addr) i && !decide (i = nr))
  | .changeBit nr addr => some (addr, fun i => bit (s addr) i ^^ decide (i = nr))
  | .testAndSetBit nr addr => some (addr, fun i => bit (s addr) i || decide (i = nr))
  | .testAndClearBit nr addr => some (addr, fun i => bit (s addr) i && !decide (i = nr))
  | .testAndChangeBit nr addr => some (addr, fun i => bit (s addr) i ^^ decide (i = nr))
  | _ => none

theorem stored_small {word : BitVec BITS_PER_LONG} (positive : 0 < n) (small : n ≤ BITS_PER_LONG) :
    Stored n dst word.getLsbD s (put dst 0 word s) := by
  refine (stored_of_words fun r j => put_small (v := fun _ => word) positive small).congr fun i inside => ?_
  rw [bitsToLongs_small positive small, Nat.mul_one] at inside
  rw [bit, Nat.mod_eq_of_lt inside]

theorem bit_first {i : ℕ} (inside : i < BITS_PER_LONG) : bit a i = (a 0).getLsbD i := by
  rw [bit, Nat.div_eq_of_lt inside, Nat.mod_eq_of_lt inside]

theorem stored_shiftRight {k : ℕ} (positive : 0 < n) (short : k < n) :
    Stored n dst (fun i => decide (i + k < if n ≤ BITS_PER_LONG then BITS_PER_LONG else n) && bit (s src) (i + k)) s
      (bitmapShiftRight n dst src k s) := by
  by_cases small : n ≤ BITS_PER_LONG
  · rw [bitmapShiftRight, if_pos small, if_pos small]
    refine (stored_small positive small).congr fun i _ => ?_
    rw [BitVec.getLsbD_ushiftRight, Nat.add_comm]
    by_cases inside : i + k < BITS_PER_LONG
    · rw [decide_eq_true inside, Bool.true_and, bit_first inside]
    · rw [decide_eq_false inside, Bool.false_and, BitVec.getLsbD_of_ge _ _ (by omega)]
  · rw [if_neg small]
    exact stored_bitmapShiftRight (by omega) short

theorem stored_shiftLeft {k : ℕ} (positive : 0 < n) (short : k < n) :
    Stored n dst (fun i => decide (i < n) && (decide (k ≤ i) && bit (s src) (i - k))) s
      (bitmapShiftLeftInto n dst src k s) := by
  by_cases small : n ≤ BITS_PER_LONG
  · rw [bitmapShiftLeftInto, if_pos small]
    refine (stored_small positive small).congr fun i inside => ?_
    rw [bitsToLongs_small positive small, Nat.mul_one] at inside
    have last : i / BITS_PER_LONG + 1 = bitsToLongs n := by
      rw [bitsToLongs_small positive small, Nat.div_eq_of_lt inside]
    have kept := getLsbD_last (s src 0 <<< k) last
    rw [Nat.mod_eq_of_lt inside] at kept
    rw [kept, Bool.and_comm, BitVec.getLsbD_shiftLeft, decide_eq_true inside, Bool.true_and,
      bit_first (Nat.lt_of_le_of_lt (Nat.sub_le i k) inside), ← decide_not]
    congr 2
    exact decide_eq_decide.mpr Nat.not_lt
  · exact stored_bitmapShiftLeft (by omega) short

theorem getLsbD_place {nr i : ℕ} (known : nr < n) : (BitVec.twoPow n nr).getLsbD i = decide (i = nr) := by
  rw [BitVec.getLsbD_twoPow, decide_eq_true known, Bool.true_and]
  exact decide_eq_decide.mpr eq_comm

theorem stored_setBit {nr : ℕ} (known : nr < n) :
    Stored n dst (fun i => bit (s dst) i || decide (i = nr)) s (setBitIn nr dst s) :=
  stored_bitop (fun _ _ _ _ => BitVec.getLsbD_or) Bool.or_false known

theorem stored_clearBit {nr : ℕ} (known : nr < n) :
    Stored n dst (fun i => bit (s dst) i && !decide (i = nr)) s (clearBitIn nr dst s) := by
  refine stored_bitop (g := fun v m => v && !m) (fun v w i within => ?_) Bool.and_true known
  rw [BitVec.getLsbD_and, BitVec.getLsbD_not, decide_eq_true within, Bool.true_and]

theorem stored_changeBit {nr : ℕ} (known : nr < n) :
    Stored n dst (fun i => bit (s dst) i ^^ decide (i = nr)) s (changeBitIn nr dst s) :=
  stored_bitop (fun _ _ _ _ => BitVec.getLsbD_xor) Bool.xor_false known

/-- A call writes these bits and nothing else. -/
theorem exec_stored (positive : 0 < n) (defined : op.Defined n) :
    match op.stores n s with
    | some (dst, y) => Stored n dst y s (op.exec n s).1
    | none => (op.exec n s).1 = s := by
  cases op with
  | zero dst => exact stored_bitmapZero positive
  | fill dst => exact stored_bitmapFill positive
  | copy dst src => exact stored_eachWord positive fun s s' k same => same src k le_rfl
  | and dst src1 src2 =>
    refine (stored_eachWord positive fun s s' k same => ?_).congr fun i _ => BitVec.getLsbD_and
    rw [same src1 k le_rfl, same src2 k le_rfl]
  | or dst src1 src2 =>
    refine (stored_eachWord positive fun s s' k same => ?_).congr fun i _ => BitVec.getLsbD_or
    rw [same src1 k le_rfl, same src2 k le_rfl]
  | xor dst src1 src2 =>
    refine (stored_eachWord positive fun s s' k same => ?_).congr fun i _ => BitVec.getLsbD_xor
    rw [same src1 k le_rfl, same src2 k le_rfl]
  | andnot dst src1 src2 =>
    refine (stored_eachWord positive fun s s' k same => ?_).congr fun i _ => ?_
    · rw [same src1 k le_rfl, same src2 k le_rfl]
    · rw [bit, BitVec.getLsbD_and, ← bit_not, bit, bit]
  | complement dst src => exact stored_bitmapComplement positive
  | shiftRight dst src k => exact stored_shiftRight positive defined
  | shiftLeft dst src k => exact stored_shiftLeft positive defined
  | setBit nr addr => exact stored_setBit defined
  | clearBit nr addr => exact stored_clearBit defined
  | changeBit nr addr => exact stored_changeBit defined
  | testAndSetBit nr addr => exact stored_setBit defined
  | testAndClearBit nr addr => exact stored_clearBit defined
  | testAndChangeBit nr addr => exact stored_changeBit defined
  | _ => rfl

/-- Where a shift to the right within one word reads bits behind the last one, none is set. -/
def BitmapOp.ReadsClean (n : ℕ) (op : BitmapOp ρ) (s : Bitmaps ρ) : Prop :=
  ∀ dst src k, op = .shiftRight dst src k → 1 < n → n < BITS_PER_LONG → NoUnused n (s src)

theorem getLsbD_shiftRight_of_reads {k i : ℕ} {y : BitVec n} (reads : 1 < n → n < BITS_PER_LONG → NoUnused n a)
    (holds : Holds a y) (short : k < n) (bound : i < n) :
    (decide (i + k < if n ≤ BITS_PER_LONG then BITS_PER_LONG else n) && bit a (i + k)) = (y >>> k).getLsbD i := by
  rw [BitVec.getLsbD_ushiftRight, Nat.add_comm k]
  by_cases inside : i + k < n
  · rw [← holds _ inside, decide_eq_true, Bool.true_and]
    split <;> omega
  · rw [BitVec.getLsbD_of_ge _ _ (Nat.not_lt.mp inside), Bool.and_eq_false_imp, decide_eq_true_iff]
    intro read
    split at read
    · rename_i small
      have behind : n < BITS_PER_LONG := by omega
      refine reads (by omega) behind _ (Nat.not_lt.mp inside) ?_
      rwa [bitsToLongs_small (by omega) small, Nat.mul_one]
    · exact absurd read inside

/-- The bits after a call are those that it means. -/
theorem exec_holds (positive : 0 < n) (defined : op.Defined n) (reads : op.ReadsClean n s)
    (holds : ∀ r, Holds (s r) (x r)) (r : ρ) : Holds ((op.exec n s).1 r) ((op.mean x).1 r) := by
  have stored := exec_stored (s := s) positive defined
  cases op with
  | zero dst => exact stored.holds holds (fun i _ => BitVec.getLsbD_zero.symm) r
  | fill dst => exact stored.holds holds (fun i _ => BitVec.getLsbD_allOnes.symm) r
  | copy dst src => exact stored.holds holds (fun i bound => holds src i bound) r
  | and dst src1 src2 =>
    refine stored.holds holds (fun i bound => ?_) r
    rw [BitVec.getLsbD_and, holds src1 i bound, holds src2 i bound]
  | or dst src1 src2 =>
    refine stored.holds holds (fun i bound => ?_) r
    rw [BitVec.getLsbD_or, holds src1 i bound, holds src2 i bound]
  | xor dst src1 src2 =>
    refine stored.holds holds (fun i bound => ?_) r
    rw [BitVec.getLsbD_xor, holds src1 i bound, holds src2 i bound]
  | andnot dst src1 src2 =>
    refine stored.holds holds (fun i bound => ?_) r
    rw [BitVec.getLsbD_and, BitVec.getLsbD_not, decide_eq_true bound, Bool.true_and, holds src1 i bound,
      holds src2 i bound]
  | complement dst src =>
    refine stored.holds holds (fun i bound => ?_) r
    rw [BitVec.getLsbD_not, holds src i bound]
  | shiftRight dst src k =>
    exact stored.holds holds
      (fun i bound => getLsbD_shiftRight_of_reads (reads dst src k rfl) (holds src) defined bound) r
  | shiftLeft dst src k =>
    refine stored.holds holds (fun i bound => ?_) r
    rw [BitVec.getLsbD_shiftLeft, Bool.and_assoc, ← holds src (i - k) (by omega), ← decide_not]
    congr 2
    exact decide_eq_decide.mpr Nat.not_lt.symm
  | setBit nr addr | testAndSetBit nr addr =>
    refine stored.holds holds (fun i bound => ?_) r
    rw [BitVec.getLsbD_or, getLsbD_place defined, holds addr i bound]
  | clearBit nr addr | testAndClearBit nr addr =>
    refine stored.holds holds (fun i bound => ?_) r
    rw [BitVec.getLsbD_and, BitVec.getLsbD_not, getLsbD_place defined, decide_eq_true bound, Bool.true_and,
      holds addr i bound]
  | changeBit nr addr | testAndChangeBit nr addr =>
    refine stored.holds holds (fun i bound => ?_) r
    rw [BitVec.getLsbD_xor, getLsbD_place defined, holds addr i bound]
  | _ => exact holds r

/-- A call returns what it means. -/
theorem exec_result (positive : 0 < n) (defined : op.Defined n) (holds : ∀ r, Holds (s r) (x r)) :
    (op.exec n s).2 = (op.mean x).2 := by
  have old {nr : ℕ} {addr : ρ} (known : nr < n) : oldBit nr addr s = (x addr).getLsbD nr :=
    oldBit_eq.trans (holds addr nr known)
  cases op with
  | testAndSetBit nr addr => exact congrArg Bool.toNat (old defined)
  | testAndClearBit nr addr => exact congrArg Bool.toNat (old defined)
  | testAndChangeBit nr addr => exact congrArg Bool.toNat (old defined)
  | testBit nr addr => exact congrArg Bool.toNat (testBitIn_eq.trans (holds addr nr defined))
  | equal src1 src2 =>
    apply congrArg Bool.toNat
    rw [Bool.eq_iff_iff, bitmapEquals_iff positive, holds_eq_iff (holds src1) (holds src2), beq_iff_eq]
  | intersects src1 src2 =>
    apply congrArg Bool.toNat
    rw [Bool.eq_iff_iff, bitmapIntersects_iff positive, holds_and_iff (holds src1) (holds src2), bne_iff_ne]
  | empty src =>
    apply congrArg Bool.toNat
    rw [Bool.eq_iff_iff, bitmapEmpty_iff positive, holds_zero_iff (holds src), beq_iff_eq]
  | full src =>
    apply congrArg Bool.toNat
    rw [Bool.eq_iff_iff, bitmapFull_iff positive, holds_full_iff (holds src), beq_iff_eq]
  | weight src => exact (bitmapWeight_eq positive).trans (holds_weight (holds src))
  | _ => rfl

/-- A call sets no bit behind the last one that was not set there. -/
theorem exec_clean (positive : 0 < n) (defined : op.Defined n) (clean : ∀ r, NoUnused n (s r)) (r : ρ) :
    NoUnused n ((op.exec n s).1 r) := by
  have stored := exec_stored (s := s) positive defined
  cases op with
  | zero dst => exact stored.clean clean (fun _ _ _ => rfl) r
  | fill dst => exact stored.clean clean (fun i behind _ => decide_eq_false (Nat.not_lt.mpr behind)) r
  | copy dst src => exact stored.clean clean (fun i => clean src i) r
  | and dst src1 src2 =>
    refine stored.clean clean (fun i behind inside => ?_) r
    rw [clean src1 i behind inside, Bool.false_and]
  | or dst src1 src2 =>
    refine stored.clean clean (fun i behind inside => ?_) r
    rw [clean src1 i behind inside, clean src2 i behind inside, Bool.or_self]
  | xor dst src1 src2 =>
    refine stored.clean clean (fun i behind inside => ?_) r
    rw [clean src1 i behind inside, clean src2 i behind inside, Bool.xor_self]
  | andnot dst src1 src2 =>
    refine stored.clean clean (fun i behind inside => ?_) r
    rw [clean src1 i behind inside, Bool.false_and]
  | complement dst src =>
    refine stored.clean clean (fun i behind _ => ?_) r
    rw [decide_eq_false (Nat.not_lt.mpr behind), Bool.false_and]
  | shiftRight dst src k =>
    refine stored.clean clean (fun i behind inside => ?_) r
    rw [Bool.and_eq_false_imp, decide_eq_true_iff]
    intro read
    refine clean src (i + k) (by omega) ?_
    split at read
    · rename_i small
      rwa [bitsToLongs_small positive small, Nat.mul_one]
    · exact absurd read (by omega)
  | shiftLeft dst src k =>
    refine stored.clean clean (fun i behind _ => ?_) r
    rw [decide_eq_false (Nat.not_lt.mpr behind), Bool.false_and]
  | setBit nr addr | testAndSetBit nr addr =>
    refine stored.clean clean (fun i behind inside => ?_) r
    rw [clean addr i behind inside, decide_eq_false (p := i = nr) (fun same => Nat.not_lt.mpr behind (same ▸ defined)),
      Bool.or_self]
  | clearBit nr addr | testAndClearBit nr addr =>
    refine stored.clean clean (fun i behind inside => ?_) r
    rw [clean addr i behind inside, Bool.false_and]
  | changeBit nr addr | testAndChangeBit nr addr =>
    refine stored.clean clean (fun i behind inside => ?_) r
    rw [clean addr i behind inside, decide_eq_false (p := i = nr) (fun same => Nat.not_lt.mpr behind (same ▸ defined)),
      Bool.xor_self]
  | _ => exact clean r

/-- A call leaves alone what is behind the arrays. -/
theorem exec_behind {i : ℕ} (positive : 0 < n) (defined : op.Defined n) (behind : BITS_PER_LONG * bitsToLongs n ≤ i)
    (r : ρ) : bit ((op.exec n s).1 r) i = bit (s r) i := by
  have stored := exec_stored (s := s) positive defined
  split at stored
  · rw [stored r i, if_neg fun there => Nat.not_lt.mpr behind there.2]
  · rw [stored]

end Calls

section Programs

variable {ops : List (BitmapOp ρ)}

/-- The calls compute what they mean, set no bit behind the last one and write nothing behind the arrays. -/
theorem execAll_mean (positive : 0 < n) (defined : ∀ op ∈ ops, op.Defined n) (holds : ∀ r, Holds (s r) (x r))
    (clean : ∀ r, NoUnused n (s r)) :
    (execAll n ops s).2 = (meanAll ops x).2 ∧
      (∀ r, Holds ((execAll n ops s).1 r) ((meanAll ops x).1 r) ∧ NoUnused n ((execAll n ops s).1 r)) ∧
      ∀ r i, BITS_PER_LONG * bitsToLongs n ≤ i → bit ((execAll n ops s).1 r) i = bit (s r) i := by
  induction ops generalizing s x with
  | nil => exact ⟨rfl, fun r => ⟨holds r, clean r⟩, fun _ _ _ => rfl⟩
  | cons op ops ih =>
    obtain ⟨first, later⟩ := List.forall_mem_cons.mp defined
    obtain ⟨results, after, behind⟩ := ih later
      (exec_holds positive first (fun _ src _ _ _ _ => clean src) holds) (exec_clean positive first clean)
    refine ⟨?_, after, fun r i outside => ?_⟩
    · exact congrArg₂ List.cons (exec_result positive first holds) results
    · exact (behind r i outside).trans (exec_behind positive first outside r)

/-- Calls on two variables, some of which read the variable that they write. -/
def mixedCalls : List (BitmapOp Bool) :=
  [.fill false, .shiftRight true false 3, .andnot false false true, .shiftLeft false false 1, .weight false,
    .testBit 69 false, .empty true]

theorem execAll_mean_two : (execAll 70 mixedCalls fun _ _ => 0).2 = [0, 0, 0, 0, 2, 1, 0] := by
  have zero (i : ℕ) : bit (fun _ => (0 : BitVec BITS_PER_LONG)) i = false := BitVec.getLsbD_zero
  have defined : ∀ op ∈ mixedCalls, op.Defined 70 := by simp [mixedCalls, BitmapOp.Defined]
  have run := execAll_mean (n := 70) (s := fun _ : Bool => fun _ => 0) (x := fun _ => 0) (by decide) defined
    (fun _ i _ => (zero i).trans BitVec.getLsbD_zero.symm) (fun _ i _ _ => zero i)
  rw [run.1]
  decide +kernel

/-- The rule that bits behind the last one do not affect any operation. -/
def UnusedDontCare (ρ : Type*) [DecidableEq ρ] (n : ℕ) : Prop :=
  ∀ (ops : List (BitmapOp ρ)) (s : Bitmaps ρ) (x : ρ → BitVec n), (∀ op ∈ ops, op.Defined n) →
    (∀ r, Holds (s r) (x r)) → (execAll n ops s).2 = (meanAll ops x).2 ∧
      ∀ r, Holds ((execAll n ops s).1 r) ((meanAll ops x).1 r)

theorem unusedDontCare_of_whole (sizes : n = 1 ∨ BITS_PER_LONG ≤ n) : UnusedDontCare ρ n := by
  have positive : 0 < n := by
    simp only [BITS_PER_LONG] at sizes
    omega
  intro ops
  induction ops with
  | nil => exact fun _ _ _ holds => ⟨rfl, holds⟩
  | cons op ops ih =>
    intro s x defined holds
    obtain ⟨first, later⟩ := List.forall_mem_cons.mp defined
    have reads : op.ReadsClean n s := fun _ _ _ _ several small => by omega
    obtain ⟨results, after⟩ := ih _ _ later (exec_holds positive first reads holds)
    exact ⟨congrArg₂ List.cons (exec_result positive first holds) results, after⟩

/-- The rule holds for one bit and from `BITS_PER_LONG` bits on. -/
theorem unusedDontCare_iff [Nonempty ρ] (positive : 0 < n) :
    UnusedDontCare ρ n ↔ n = 1 ∨ BITS_PER_LONG ≤ n := by
  refine ⟨fun rule => ?_, unusedDontCare_of_whole⟩
  by_contra between
  have small : n < BITS_PER_LONG := by omega
  obtain ⟨v⟩ := ‹Nonempty ρ›
  -- only the first unused bit is set, and it is shifted into the last place
  let s : Bitmaps ρ := fun _ _ => BitVec.twoPow BITS_PER_LONG n
  have unused {i : ℕ} (inside : i < BITS_PER_LONG) : bit (s v) i = decide (i = n) := by
    rw [bit_first inside, getLsbD_place small]
  have holds (r : ρ) : Holds (s r) (0 : BitVec n) := by
    intro i bound
    rw [unused (bound.trans small), decide_eq_false bound.ne]
    exact BitVec.getLsbD_zero.symm
  have defined : ∀ op ∈ [BitmapOp.shiftRight v v 1], op.Defined n := by
    rw [List.forall_mem_singleton, BitmapOp.Defined]
    omega
  have shifted := (rule _ s _ defined holds).2 v (n - 1) (by omega)
  have last : bit (bitmapShiftRight n v v 1 s v) (n - 1) = true := by
    have inside : n - 1 < BITS_PER_LONG * bitsToLongs n := (Nat.sub_lt positive Nat.one_pos).trans_le le_bitsToLongs
    rw [stored_shiftRight positive (by omega) v (n - 1), if_pos ⟨rfl, inside⟩, if_pos small.le]
    dsimp only
    rw [Nat.sub_add_cancel positive, unused small, decide_eq_true small, decide_eq_true rfl]
    rfl
  have unset : ((0 : BitVec n) >>> 1).getLsbD (n - 1) = false := by
    rw [BitVec.getLsbD_ushiftRight]
    exact BitVec.getLsbD_zero
  change bit (bitmapShiftRight n v v 1 s v) (n - 1) =
    BitVec.getLsbD (Function.update (fun _ : ρ => (0 : BitVec n)) v ((0 : BitVec n) >>> 1) v) (n - 1) at shifted
  rw [Function.update_self, last, unset] at shifted
  exact absurd shifted Bool.true_eq_false.mp

/-- Bitmaps of 40 bits do not keep to the rule. -/
theorem unusedDontCare_forty : ¬ UnusedDontCare Unit 40 := by
  rw [unusedDontCare_iff (by decide)]
  decide

end Programs

end Irqbalance
