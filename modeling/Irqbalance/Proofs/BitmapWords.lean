import Irqbalance.Lib.WordStore
import Irqbalance.Model.BitmapWords
import Irqbalance.Proofs.HexMask

/-! # The words of a mask and its bits

The functions on arrays of words compute those on bit vectors: the shift in place is the shift, and
the printer and the parser handle the same chunks.
-/

namespace Irqbalance

open Words

section Shifting

variable {bits shift : ℕ} {maskp : Bitmap} {mask : BitVec bits}

theorem getLsbD_lowBits {left i : ℕ} (few : left ≤ BITS_PER_LONG) : (lowBits left).getLsbD i = decide (i < left) := by
  rw [lowBits, BitVec.getLsbD_ofNat, Nat.testBit_two_pow_sub_one]
  by_cases low : i < left
  · simp [low, low.trans_le few]
  · simp [low]

/-- A word depends on itself and the word below. -/
theorem shiftLeftWord_congr {a b : Bitmap} {k : ℕ} (same : ∀ j ≤ k, a j = b j) :
    shiftLeftWord shift bits a k = shiftLeftWord shift bits b k := by
  unfold shiftLeftWord
  rw [same k le_rfl, same (k - 1) (Nat.sub_le k 1)]

/-- The bits below the end of the array are left alone. -/
theorem getLsbD_cut {word : BitVec BITS_PER_LONG} {left i : ℕ} {top : Prop} [Decidable top] (few : left ≤ BITS_PER_LONG)
    (below : top → i < left) : (if top then word &&& lowBits left else word).getLsbD i = word.getLsbD i := by
  split
  · rename_i last
    rw [BitVec.getLsbD_and, getLsbD_lowBits few, decide_eq_true (below last), Bool.and_true]
  · rfl

/-- The bits of a word come from below by the shift. -/
theorem getLsbD_shiftLeftWord {i k : ℕ} (inside : i < BITS_PER_LONG)
    (bound : (k + shift / BITS_PER_LONG) * BITS_PER_LONG + i < bits) :
    (shiftLeftWord shift bits maskp k).getLsbD i =
      (decide (shift % BITS_PER_LONG ≤ k * BITS_PER_LONG + i) &&
        bit maskp (k * BITS_PER_LONG + i - shift % BITS_PER_LONG)) := by
  have part : shift % BITS_PER_LONG < BITS_PER_LONG := Nat.mod_lt _ (by decide)
  have few : bits % BITS_PER_LONG ≤ BITS_PER_LONG := (Nat.mod_lt _ (by decide)).le
  have stored : bits % BITS_PER_LONG ≠ 0 ∧ k + shift / BITS_PER_LONG = bitsToLongs bits - 1 →
      i < bits % BITS_PER_LONG := by
    simp only [bitsToLongs, BITS_PER_LONG] at *
    omega
  have read : bits % BITS_PER_LONG ≠ 0 ∧ k = bitsToLongs bits - 1 → i - shift % BITS_PER_LONG < bits % BITS_PER_LONG := by
    simp only [bitsToLongs, BITS_PER_LONG] at *
    omega
  unfold shiftLeftWord
  dsimp only
  rw [getLsbD_cut few stored, getLsbD_carry _ _ part inside, getLsbD_cut few read]
  clear stored read
  split
  · rename_i low
    cases k with
    | zero =>
      rw [if_neg (by omega), decide_eq_false (by omega), Bool.false_and]
      exact BitVec.getLsbD_zero
    | succ k =>
      rw [if_pos (by omega), Nat.add_sub_cancel, bit]
      simp only [BITS_PER_LONG] at *
      have word : ((k + 1) * 64 + i - shift % 64) / 64 = k := by omega
      have place : ((k + 1) * 64 + i - shift % 64) % 64 = 64 - shift % 64 + i := by omega
      rw [decide_eq_true (by omega), Bool.true_and, word, place]
  · rename_i high
    rw [bit]
    simp only [BITS_PER_LONG] at *
    have word : (k * 64 + i - shift % 64) / 64 = k := by omega
    have place : (k * 64 + i - shift % 64) % 64 = i - shift % 64 := by omega
    rw [decide_eq_true (by omega), Bool.true_and, word, place]

/-- The shift in place is the shift of the bits. -/
theorem bitmapShiftLeft_holds (shift : ℕ) (holds : Holds maskp mask) :
    Holds (bitmapShiftLeft shift bits maskp) (mask <<< shift) := by
  intro i bound
  rw [BitVec.getLsbD_shiftLeft, decide_eq_true bound, Bool.true_and, bit, bitmapShiftLeft]
  dsimp only
  have fed : i / BITS_PER_LONG < shift / BITS_PER_LONG → i < shift := by
    simp only [BITS_PER_LONG]
    omega
  split
  · rename_i cleared
    rw [decide_eq_true (fed cleared)]
    exact BitVec.getLsbD_zero
  · rename_i kept
    have moved : shift / BITS_PER_LONG ≤ i / BITS_PER_LONG ∧
        i / BITS_PER_LONG < bitsToLongs bits - shift / BITS_PER_LONG + shift / BITS_PER_LONG := by
      simp only [bitsToLongs, BITS_PER_LONG] at *
      omega
    have target : (i / BITS_PER_LONG - shift / BITS_PER_LONG + shift / BITS_PER_LONG) * BITS_PER_LONG +
        i % BITS_PER_LONG < bits := by
      simp only [BITS_PER_LONG] at *
      omega
    rw [moveUp_apply fun _ _ _ => shiftLeftWord_congr, if_pos moved,
      getLsbD_shiftLeftWord (Nat.mod_lt i (by decide)) target]
    simp only [BITS_PER_LONG] at *
    have source : (i / 64 - shift / 64) * 64 + i % 64 - shift % 64 = i - shift := by omega
    by_cases below : i < shift
    · rw [decide_eq_false (by omega), decide_eq_true below]
      rfl
    · rw [decide_eq_true (by omega), decide_eq_false below, source, Bool.true_and, Bool.not_false, Bool.true_and]
      exact holds (i - shift) (by omega)

end Shifting

section Parsing

variable {maskp : Bitmap} {mask : CpuMask} {st : HexState} {chunk : ℕ}

theorem appendChunk_holds (holds : Holds maskp mask) (small : chunk < 2 ^ BITS_PER_LONG) :
    Holds (appendChunk chunk maskp) (mask <<< CHUNKSZ ||| BitVec.ofNat NR_CPUS chunk) := by
  intro i bound
  have shifted := bitmapShiftLeft_holds CHUNKSZ holds i bound
  rw [bit] at shifted
  rw [BitVec.getLsbD_or, BitVec.getLsbD_ofNat, decide_eq_true bound, Bool.true_and, bit]
  unfold appendChunk
  by_cases first : i / BITS_PER_LONG = 0
  · have inside : i < BITS_PER_LONG := by
      simp only [BITS_PER_LONG] at *
      omega
    rw [first] at shifted ⊢
    rw [Function.update_self, BitVec.getLsbD_or, shifted, BitVec.getLsbD_ofNat, Nat.mod_eq_of_lt inside,
      decide_eq_true inside, Bool.true_and]
  · have above : BITS_PER_LONG ≤ i := by
      simp only [BITS_PER_LONG] at *
      omega
    rw [Function.update_of_ne first, shifted,
      Nat.testBit_lt_two_pow (small.trans_le (Nat.pow_le_pow_right (by decide) above)), Bool.or_false]

/-- The end of a chunk leaves the same bits and variables. -/
theorem bitmapEndChunk_holds (holds : Holds maskp mask) (small : st.chunk < 2 ^ BITS_PER_LONG) :
    Holds (bitmapEndChunk st maskp).1 (endChunk st mask).1 ∧ (bitmapEndChunk st maskp).2 = (endChunk st mask).2 := by
  have appended := appendChunk_holds holds small
  unfold bitmapEndChunk endChunk
  dsimp only
  generalize st.nbits + (if st.nchunks = 0 then fls st.chunk else CHUNKSZ) = nbits
  split
  · exact ⟨holds, rfl⟩
  · split
    · exact ⟨holds, rfl⟩
    · split
      · exact ⟨appended, rfl⟩
      · exact ⟨appended, rfl⟩

/-- The end of a chunk leaves no larger value. -/
theorem endChunk_chunk_le {next : HexState} (ended : (endChunk st mask).2 = .ok next) : next.chunk ≤ st.chunk := by
  unfold endChunk at ended
  dsimp only at ended
  generalize st.nbits + (if st.nchunks = 0 then fls st.chunk else CHUNKSZ) = nbits at ended
  split at ended
  · contradiction
  · split at ended
    · obtain rfl := Except.ok.inj ended
      exact le_rfl
    · split at ended
      · contradiction
      · obtain rfl := Except.ok.inj ended
        exact Nat.zero_le _

/-- At the end of a chunk both parsers go on, or both stop with the same code. -/
theorem bitmapEndChunk_cases (st : HexState) (holds : Holds maskp mask) (small : st.chunk < 2 ^ CHUNKSZ) :
    ∃ maskp' mask', Holds maskp' mask' ∧
      ((∃ e, bitmapEndChunk st maskp = (maskp', .error e) ∧ endChunk st mask = (mask', .error e)) ∨
        ∃ st', bitmapEndChunk st maskp = (maskp', .ok st') ∧ endChunk st mask = (mask', .ok st') ∧
          st'.chunk < 2 ^ CHUNKSZ) := by
  obtain ⟨bits, same⟩ := bitmapEndChunk_holds holds (small.trans_le (Nat.pow_le_pow_right (by decide) (by decide)))
  have least {next : HexState} : (endChunk st mask).2 = .ok next → next.chunk ≤ st.chunk := endChunk_chunk_le
  generalize bitmapEndChunk st maskp = words at *
  generalize endChunk st mask = ended at *
  obtain ⟨maskp', result⟩ := words
  rcases ended with ⟨mask', e | st'⟩
  · obtain rfl : result = .error e := same
    exact ⟨maskp', mask', bits, .inl ⟨e, rfl, rfl⟩⟩
  · obtain rfl : result = .ok st' := same
    exact ⟨maskp', mask', bits, .inr ⟨st', rfl, rfl, (least rfl).trans_lt small⟩⟩

/-- The parser on words does what the parser on bits does. -/
theorem bitmapParseFrom_holds (buf : List Char) (st : HexState) (holds : Holds maskp mask)
    (small : st.chunk < 2 ^ CHUNKSZ) :
    Holds (bitmapParseFrom buf st maskp).1 (parseFrom buf st mask).1 ∧
      (bitmapParseFrom buf st maskp).2 = (parseFrom buf st mask).2 := by
  induction buf generalizing st maskp mask with
  | nil =>
    rw [bitmapParseFrom, parseFrom]
    obtain ⟨maskp', mask', bits, ⟨e, words, same⟩ | ⟨st', words, same, _⟩⟩ := bitmapEndChunk_cases st holds small
    · rw [words, same]
      exact ⟨bits, rfl⟩
    · rw [words, same]
      exact ⟨bits, rfl⟩
  | cons c buf ih =>
    rw [bitmapParseFrom, parseFrom]
    dsimp only
    split
    · exact ih _ holds small
    · split
      · exact ⟨holds, rfl⟩
      · split
        · obtain ⟨maskp', mask', bits, ⟨e, words, same⟩ | ⟨st', words, same, less⟩⟩ :=
            bitmapEndChunk_cases { st with c := c } holds small
          · rw [words, same]
            exact ⟨bits, rfl⟩
          · rw [words, same]
            dsimp only
            split
            · exact ih _ bits less
            · exact ⟨bits, rfl⟩
        · split
          · exact ⟨holds, rfl⟩
          · rename_i digit
            split
            · exact ⟨holds, rfl⟩
            · rename_i free
              have least := unhex_lt (c := c) (by simpa using digit)
              apply ih _ holds
              dsimp only [CHUNKSZ] at free ⊢
              omega

end Parsing

section Printing

variable {maskp other : Bitmap} {mask : CpuMask}

/-- The words of a chunk and its bits. -/
theorem bitmapPrintChunk_eq {buflen k : ℕ} {p : Printing} (holds : Holds maskp mask) (inside : k < NR_CPUS / CHUNKSZ) :
    bitmapPrintChunk buflen maskp k p = printChunk buflen mask k p := by
  have within : CHUNKSZ * k % BITS_PER_LONG + CHUNKSZ ≤ BITS_PER_LONG := by
    simp only [CHUNKSZ, BITS_PER_LONG]
    omega
  have bound : CHUNKSZ * k + CHUNKSZ ≤ NR_CPUS := by
    simp only [CHUNKSZ, NR_CPUS] at *
    omega
  have ones : (lowBits CHUNKSZ).toNat = 2 ^ CHUNKSZ - 1 := rfl
  have val : (maskp (CHUNKSZ * k / BITS_PER_LONG) >>> (CHUNKSZ * k % BITS_PER_LONG) &&& lowBits CHUNKSZ).toNat =
      mask.toNat / 2 ^ (CHUNKSZ * k) % 2 ^ CHUNKSZ := by
    rw [BitVec.toNat_and, ones, Nat.and_two_pow_sub_one_eq_mod]
    exact holds.extract within bound
  unfold bitmapPrintChunk printChunk
  dsimp only
  rw [val]

/-- The printer on words does what the printer on bits does. -/
theorem bitmapScnprintf_eq (buflen : ℕ) (holds : Holds maskp mask) :
    bitmapScnprintf buflen maskp = cpumaskScnprintf buflen mask := by
  have walk (k : ℕ) (p : Printing) (few : k ≤ NR_CPUS / CHUNKSZ) :
      bitmapPrintChunks buflen maskp k p = printChunks buflen mask k p := by
    induction k generalizing p with
    | zero => rfl
    | succ k ih =>
      rw [bitmapPrintChunks, printChunks, bitmapPrintChunk_eq holds few]
      exact ih _ (Nat.le_of_succ_le few)
  exact walk _ _ le_rfl

/-- Arrays of words are equal if their masks are. -/
theorem bitmapEqual_iff {mask' : CpuMask} (first : Holds maskp mask) (second : Holds other mask') :
    bitmapEqual NR_CPUS maskp other = true ↔ mask = mask' := by
  have whole : BITS_PER_LONG ∣ NR_CPUS := by decide
  rw [← first.words_eq_iff (by decide) second whole]
  simp [bitmapEqual, Nat.mod_eq_zero_of_dvd whole]

end Printing

end Irqbalance
