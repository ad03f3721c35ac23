import Irqbalance.Model.Interrupts
import Irqbalance.Proofs.BitmapWords
import Irqbalance.Proofs.MaskText

/-! # The mask in `smp_affinity`

The text that `activate_mapping` writes is read back by `check_affinity` as the same mask, also in the
form in which the kernel may print it.
-/

namespace Irqbalance

open CText Words

/-- `n` chunks of zeros with a comma behind each. -/
def zeroChunks (n : ℕ) : List Char := (List.replicate n (showHex 8 0)).flatMap (· ++ [','])

/-- What the kernel may print for a mask: chunks of zeros in front, and less leading zeros in the
first chunk, but at least one digit. -/
def KernelText (text shown : List Char) : Prop :=
  ∃ chunks zeros, zeros < 8 ∧ (∀ c ∈ (zeroChunks chunks ++ text).take zeros, c = '0') ∧
    shown = (zeroChunks chunks ++ text).drop zeros

/-- The chunks of a number, the highest first. -/
def chunkList : ℕ → ℕ → List (List Char)
  | 0, v => [showHex 8 v]
  | k + 1, v => chunkList k (v / 2 ^ 32) ++ [showHex 8 (v % 2 ^ 32)]

section Chunks

variable {k v w n m : ℕ} {chunks : List (List Char)} {first rest : List Char}

theorem hexDigits_showHex : HexDigits (showHex w n) := by
  induction w generalizing n with
  | zero => exact fun c member => absurd member List.not_mem_nil
  | succ w ih =>
    have digit : ∀ d < 16, isXDigit (Nat.digitChar d) = true := by decide
    exact (ih (n := n / 16)).append_singleton (digit _ (Nat.mod_lt n (by decide)))

/-- Hex digits that are printed denote the number. -/
theorem hexValue_showHex (small : n < 16 ^ w) : hexValue (showHex w n) = n := by
  induction w generalizing n with
  | zero =>
    rw [pow_zero, Nat.lt_one_iff] at small
    exact small.symm
  | succ w ih =>
    have digit : ∀ d < 16, unhex (Nat.digitChar d) = d := by decide
    have high : n / 16 < 16 ^ w := by
      rw [pow_succ] at small
      omega
    rw [showHex, hexValue_append_singleton, ih high, digit _ (Nat.mod_lt n (by decide))]
    omega

/-- A chunk that is printed has 32 bits. -/
theorem hexValue_showHex_lt : hexValue (showHex w n) < 16 ^ w := by
  induction w generalizing n with
  | zero => exact Nat.one_pos
  | succ w ih =>
    have digit : ∀ d < 16, unhex (Nat.digitChar d) < 16 := by decide
    have least := digit _ (Nat.mod_lt n (by decide))
    have high := ih (n := n / 16)
    rw [showHex, hexValue_append_singleton, pow_succ]
    omega

/-- Leading zeros add nothing. -/
theorem hexValue_drop_zeros (zeros : ∀ c ∈ first.take n, c = '0') : hexValue (first.drop n) = hexValue first := by
  induction n generalizing first with
  | zero => rfl
  | succ n ih =>
    cases first with
    | nil => rfl
    | cons c first =>
      obtain rfl : c = '0' := zeros c (by simp)
      rw [List.drop_succ_cons, ih fun d member => zeros d (by simp [member])]
      rfl

theorem chunkText_append_comma : chunkText k v ++ [','] = (chunkList k v).flatMap (· ++ [',']) := by
  induction k generalizing v with
  | zero => simp [chunkText, chunkList]
  | succ k ih =>
    rw [chunkList, List.flatMap_append, ← ih]
    simp [chunkText]

theorem mem_chunkList {chunk : List Char} (member : chunk ∈ chunkList k v) : ∃ n, chunk = showHex 8 n := by
  induction k generalizing v with
  | zero => exact ⟨v, List.mem_singleton.mp member⟩
  | succ k ih =>
    rcases List.mem_append.mp member with high | low
    · exact ih high
    · exact ⟨_, List.mem_singleton.mp low⟩

theorem chunkList_ne_nil : chunkList k v ≠ [] := by
  cases k with
  | zero => exact List.cons_ne_nil _ _
  | succ k => simp [chunkList]

theorem chunksValue_chunkList (small : v < 2 ^ (32 * (k + 1))) : chunksValue (chunkList k v) = v := by
  induction k generalizing v with
  | zero =>
    have single : hexValue (showHex 8 v) = v := hexValue_showHex small
    simp [chunkList, chunksValue, single]
  | succ k ih =>
    have high : v / 2 ^ 32 < 2 ^ (32 * (k + 1)) := div_chunk_lt small
    have low : hexValue (showHex 8 (v % 2 ^ 32)) = v % 2 ^ 32 := hexValue_showHex (Nat.mod_lt v (by decide))
    rw [chunkList, chunksValue_append_singleton, ih high, low, CHUNKSZ]
    omega

/-- Chunks of zeros in front add nothing. -/
theorem chunksValue_replicate : chunksValue (List.replicate n (showHex 8 0) ++ chunks) = chunksValue chunks := by
  induction n with
  | zero => rfl
  | succ n ih =>
    rw [List.replicate_succ, List.cons_append, ← ih]
    rfl

/-- The text of all chunks, before the first loses its zeros. -/
theorem zeroChunks_append :
    zeroChunks n ++ chunkText k v = [','].intercalate (List.replicate n (showHex 8 0) ++ chunkList k v) := by
  have text : zeroChunks n ++ chunkText k v ++ [','] =
      [','].intercalate (List.replicate n (showHex 8 0) ++ chunkList k v) ++ [','] := by
    rw [intercalate_append_sep (List.append_ne_nil_of_right_ne_nil _ chunkList_ne_nil), List.flatMap_append,
      ← chunkText_append_comma, List.append_assoc, zeroChunks]
  exact List.append_cancel_right text

/-- The text of the kernel is in the grammar, with the value of the mask. -/
theorem KernelText.hexText {shown : List Char} (kernel : KernelText (chunkText k v) shown)
    (small : v < 2 ^ (32 * (k + 1))) : ∃ chunks, HexText (shown ++ ['\n']) chunks ∧
      (∀ chunk ∈ chunks, hexValue chunk < 2 ^ CHUNKSZ) ∧ chunksValue chunks = v := by
  obtain ⟨n, zeros, few, blank, rfl⟩ := kernel
  obtain ⟨first, rest, all⟩ := List.exists_cons_of_ne_nil
    (List.append_ne_nil_of_right_ne_nil (List.replicate n (showHex 8 0)) (chunkList_ne_nil (k := k) (v := v)))
  have each : ∀ chunk ∈ first :: rest, ∃ m, chunk = showHex 8 m := by
    rw [← all]
    intro chunk member
    rcases List.mem_append.mp member with padding | printed
    · exact ⟨0, List.eq_of_mem_replicate padding⟩
    · exact mem_chunkList printed
  obtain ⟨m, shape⟩ := each first List.mem_cons_self
  have length : first.length = 8 := shape ▸ length_showHex
  have inside : zeros ≤ first.length := by omega
  rw [zeroChunks_append, all, take_intercalate inside] at blank
  rw [zeroChunks_append, all, drop_intercalate inside]
  have value : hexValue (first.drop zeros) = hexValue first := hexValue_drop_zeros blank
  refine ⟨first.drop zeros :: rest, ⟨List.cons_ne_nil _ _, ?_, [], ['\n'], ?_, ?_, rfl⟩, ?_, ?_⟩
  · intro chunk member
    rcases List.mem_cons.mp member with rfl | later
    · constructor
      · intro none
        have short := List.drop_eq_nil_iff.mp none
        omega
      · intro c inside
        exact (shape ▸ hexDigits_showHex) c (List.mem_of_mem_drop inside)
    · obtain ⟨i, rfl⟩ := each chunk (List.mem_cons_of_mem first later)
      exact ⟨by simp [showHex], hexDigits_showHex⟩
  · exact fun c member => absurd member List.not_mem_nil
  · intro c member
    rw [List.mem_singleton.mp member]
    rfl
  · have bound (i : ℕ) : hexValue (showHex 8 i) < 2 ^ CHUNKSZ := hexValue_showHex_lt
    intro chunk member
    rcases List.mem_cons.mp member with rfl | later
    · rw [value, shape]
      exact bound m
    · obtain ⟨i, rfl⟩ := each chunk (List.mem_cons_of_mem first later)
      exact bound i
  · have total : chunksValue (first :: rest) = v := by
      rw [← all, chunksValue_replicate, chunksValue_chunkList small]
    rw [← total]
    simp only [chunksValue, List.foldl_cons, value]

end Chunks

section RoundTrip

variable {v k : ℕ} {p : Printing} {shown : List Char} {maskp applied : Bitmap} {mask : CpuMask}

theorem HexText.cString_eq {text : List Char} {chunks : List (List Char)} (hex : HexText text chunks) :
    cString text = text := by
  obtain ⟨front, complete, current, back, before, behind, spelled, _, _, rfl⟩ := hex.exists_spell
  rw [spelled.cString_append _ before, cString, List.takeWhile_eq_self_iff.mpr behind.plain]

/-- The whole text of a mask is in the buffer. -/
theorem PrintedIn.whole (printed : PrintedIn PATH_MAX v k p) (small : v < 2 ^ NR_CPUS) : p.text = chunkText k v := by
  have few : k ≤ 127 := by
    rcases printed.high with rfl | high
    · exact Nat.zero_le 127
    · have less := (Nat.pow_lt_pow_iff_right (by decide)).mp (high.trans_lt small)
      simp only [NR_CPUS] at less
      omega
  rw [printed.text, List.take_of_length_le]
  rw [length_chunkText, PATH_MAX]
  omega

/-- A mask of the first 32 CPUs is printed as one chunk. -/
theorem bitmapScnprintf_single {x : BitVec BITS_PER_LONG} (small : x.toNat < 2 ^ 32) :
    (bitmapScnprintf PATH_MAX fun k => if k = 0 then x else 0).text = showHex 8 x.toNat := by
  have value : (x.setWidth NR_CPUS).toNat = x.toNat := BitVec.toNat_setWidth_of_le (by decide)
  obtain ⟨k, printed⟩ := cpumaskScnprintf_printedIn PATH_MAX (x.setWidth NR_CPUS)
  rw [value] at printed
  obtain rfl : k = 0 := by
    rcases printed.high with first | high
    · exact first
    · have less := (Nat.pow_lt_pow_iff_right (by decide)).mp (high.trans_lt small)
      omega
  have few : x.toNat < 2 ^ NR_CPUS := value ▸ (x.setWidth NR_CPUS).isLt
  rw [bitmapScnprintf_eq PATH_MAX (holds_single (by decide) x), printed.whole few]
  rfl

/-- What has been printed is read back as the same mask. -/
theorem getMaskFromBitmap_holds (holds : Holds maskp mask)
    (kernel : KernelText (bitmapScnprintf PATH_MAX maskp).text shown) :
    Holds (getMaskFromBitmap (shown ++ ['\n'])).1 mask ∧ (getMaskFromBitmap (shown ++ ['\n'])).2 = none := by
  obtain ⟨k, printed⟩ := cpumaskScnprintf_printedIn PATH_MAX mask
  rw [bitmapScnprintf_eq PATH_MAX holds, printed.whole mask.isLt] at kernel
  obtain ⟨chunks, hex, small, value⟩ := kernel.hexText printed.low
  have fits : Fits chunks := ⟨small, value ▸ mask.isLt⟩
  have start : Holds (fun _ => 0) CPU_MASK_NONE := holds_zero (w := BITS_PER_LONG) fun _ _ => rfl
  obtain ⟨bits, code⟩ := bitmapParseFrom_holds (shown ++ ['\n']) {} start (by decide)
  have text := hex.cString_eq
  have parsed := (bitmapParse_hexText (text.symm ▸ hex : HexText (cString (shown ++ ['\n'])) chunks)).1 fits
  rw [value, BitVec.ofNat_toNat, BitVec.setWidth_eq, bitmapParse] at parsed
  rw [parsed] at bits code
  rw [getMaskFromBitmap, text]
  exact ⟨bits, code⟩

end RoundTrip

/-- The text that is written for a mask is read back as this mask, and the test of `check_affinity` is
its equality. -/
theorem checkAffinityLine_roundTrip (maskp : Bitmap) (shown : List Char)
    (kernel : KernelText (bitmapScnprintf PATH_MAX maskp).text shown) :
    (getMaskFromBitmap (shown ++ ['\n'])).2 = none ∧
      (∀ k < bitsToLongs NR_CPUS, (getMaskFromBitmap (shown ++ ['\n'])).1 k = maskp k) ∧
        ∀ applied : Bitmap, checkAffinityLine (shown ++ ['\n']) applied = true ↔
          ∀ k < bitsToLongs NR_CPUS, applied k = maskp k := by
  have whole : BITS_PER_LONG ∣ NR_CPUS := by decide
  obtain ⟨mask, holds⟩ : ∃ mask : CpuMask, Holds maskp mask := exists_holds maskp
  obtain ⟨bits, code⟩ := getMaskFromBitmap_holds holds kernel
  refine ⟨code, ?_, ?_⟩
  · exact (bits.words_eq_iff (by decide) holds whole).mpr rfl
  · intro applied
    obtain ⟨mask', other⟩ : ∃ mask' : CpuMask, Holds applied mask' := exists_holds applied
    rw [checkAffinityLine, bitmapEqual_iff other bits]
    exact (other.words_eq_iff (by decide) holds whole).symm

/-- CPUs 0 and 2, as a kernel for six CPUs prints them. -/
theorem checkAffinityLine_roundTrip_05 : (getMaskFromBitmap "05\n".toList).2 = none ∧
    (∀ k < bitsToLongs NR_CPUS, (getMaskFromBitmap "05\n".toList).1 k = if k = 0 then 5 else 0) ∧
      ∀ applied : Bitmap, checkAffinityLine "05\n".toList applied = true ↔
        ∀ k < bitsToLongs NR_CPUS, applied k = if k = 0 then 5 else 0 := by
  apply checkAffinityLine_roundTrip (fun k => if k = 0 then 5 else 0) "05".toList
  have printed : (bitmapScnprintf PATH_MAX fun k => if k = 0 then 5 else 0).text = showHex 8 5 :=
    bitmapScnprintf_single (by decide)
  have zeros : (zeroChunks 0 ++ showHex 8 5).take 6 = List.replicate 6 '0' := by decide
  rw [printed]
  exact ⟨0, 6, by decide, fun c member => List.eq_of_mem_replicate (zeros ▸ member), by decide⟩

end Irqbalance
