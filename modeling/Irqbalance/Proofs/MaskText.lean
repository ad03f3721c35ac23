import Irqbalance.Model.Bitmap
import Mathlib.Tactic.Ring

/-! # The text of a mask

`cpumask_scnprintf` prints a mask in chunks of eight hex digits, from its highest chunk that is not
zero, and cuts the text to its buffer.
-/

namespace Irqbalance

/-- `k + 1` chunks of a number, the highest first. -/
def chunkText : ℕ → ℕ → List Char
  | 0, v => showHex 8 v
  | k + 1, v => chunkText k (v / 2 ^ 32) ++ ',' :: showHex 8 (v % 2 ^ 32)

/-- A buffer of this size after the `k + 1` chunks of a number. -/
structure PrintedIn (buflen v k : ℕ) (p : Printing) : Prop where
  high : k = 0 ∨ 2 ^ (32 * k) ≤ v
  low : v < 2 ^ (32 * (k + 1))
  text : p.text = (chunkText k v).take (buflen - 1)
  len : p.len = 9 * k + 8
  sizes : ∀ size ∈ p.sizes, size = buflen ∨ (buflen : ℤ) + 1 ≤ size + 9 * k
  first : p.first = false

/-- The chunks from `k` on have been handled. -/
def PrintedFrom (buflen : ℕ) (mask : CpuMask) (k : ℕ) (p : Printing) : Prop :=
  (mask.toNat / 2 ^ (32 * k) = 0 ∧ p = {}) ∨
    (mask.toNat / 2 ^ (32 * k) ≠ 0 ∧ ∃ j, PrintedIn buflen (mask.toNat / 2 ^ (32 * k)) j p)

variable {buflen v k j n w : ℕ} {p : Printing} {mask : CpuMask}

@[simp] theorem length_showHex : (showHex w n).length = w := by
  induction w generalizing n with
  | zero => rfl
  | succ w ih => rw [showHex, List.length_append, ih, List.length_singleton]

/-- A number without its lowest chunk. -/
theorem div_chunk_lt (small : v < 2 ^ (32 * (k + 1 + 1))) : v / 2 ^ 32 < 2 ^ (32 * (k + 1)) := by
  rw [Nat.mul_succ 32 (k + 1), pow_add] at small
  exact Nat.div_lt_of_lt_mul (by rwa [mul_comm])

theorem length_chunkText : (chunkText k v).length = 9 * k + 8 := by
  induction k generalizing v with
  | zero => exact length_showHex
  | succ k ih =>
    rw [chunkText, List.length_append, List.length_cons, ih, length_showHex]
    omega

/-- One chunk in front of the number printed so far. -/
theorem PrintedIn.chunk {c : ℕ} (printed : PrintedIn buflen v j p) (positive : v ≠ 0) (chunk : c < 2 ^ 32) :
    PrintedIn buflen (v * 2 ^ 32 + c) (j + 1)
      { text := (p.text ++ ',' :: showHex 8 c).take (buflen - 1), len := p.len + 9
        sizes := p.sizes ++ [(buflen : ℤ) - p.len], first := false } where
  high := by
    right
    have bound : 2 ^ (32 * j) ≤ v := by
      rcases printed.high with rfl | bound
      · exact Nat.one_le_iff_ne_zero.mpr positive
      · exact bound
    calc 2 ^ (32 * (j + 1)) = 2 ^ (32 * j) * 2 ^ 32 := by rw [Nat.mul_succ, pow_add]
      _ ≤ v * 2 ^ 32 := Nat.mul_le_mul_right _ bound
      _ ≤ v * 2 ^ 32 + c := Nat.le_add_right _ _
  low := by
    have bound : v + 1 ≤ 2 ^ (32 * (j + 1)) := printed.low
    calc v * 2 ^ 32 + c < (v + 1) * 2 ^ 32 := by omega
      _ ≤ 2 ^ (32 * (j + 1)) * 2 ^ 32 := Nat.mul_le_mul_right _ bound
      _ = 2 ^ (32 * (j + 1 + 1)) := by rw [Nat.mul_succ 32 (j + 1), pow_add]
  text := by
    have quotient : (v * 2 ^ 32 + c) / 2 ^ 32 = v := by omega
    have remainder : (v * 2 ^ 32 + c) % 2 ^ 32 = c := by omega
    rw [printed.text, CText.take_append_take, chunkText, quotient, remainder]
  len := by
    have before := printed.len
    dsimp only
    omega
  sizes size member := by
    have before := printed.len
    rcases List.mem_append.mp member with old | new
    · rcases printed.sizes size old with whole | bound
      · exact .inl whole
      · right
        omega
    · right
      rw [List.mem_singleton.mp new]
      omega
  first := rfl

/-- A round hands the chunk on to the next one. -/
theorem printChunk_printed (before : PrintedFrom buflen mask (k + 1) p) :
    PrintedFrom buflen mask k (printChunk buflen mask k p) ∨
      (k = 0 ∧ PrintedIn buflen 0 0 (printChunk buflen mask k p) ∧ mask.toNat = 0) := by
  have split : mask.toNat / 2 ^ (32 * k) =
      mask.toNat / 2 ^ (32 * (k + 1)) * 2 ^ 32 + mask.toNat / 2 ^ (32 * k) % 2 ^ 32 := by
    rw [Nat.mul_succ, pow_add, ← Nat.div_div_eq_div_mul]
    omega
  have bound : mask.toNat / 2 ^ (32 * k) % 2 ^ 32 < 2 ^ 32 := Nat.mod_lt _ (by decide)
  unfold printChunk
  rw [show CHUNKSZ = 32 from rfl]
  dsimp only
  generalize mask.toNat / 2 ^ (32 * k) % 2 ^ 32 = c at split bound ⊢
  rcases before with ⟨zero, rfl⟩ | ⟨positive, j, printed⟩
  · rw [zero, Nat.zero_mul, Nat.zero_add] at split
    have single : PrintedIn buflen c 0
        { text := (showHex 8 c).take (buflen - 1), len := 8, sizes := [(buflen : ℤ)], first := false } :=
      { high := .inl rfl, low := bound, text := rfl, len := rfl, first := rfl
        sizes := fun _ member => .inl (List.mem_singleton.mp member) }
    by_cases printedNow : c ≠ 0 ∨ k = 0
    · have taken : c ≠ 0 ∨ ({} : Printing).first = false ∨ k = 0 := printedNow.imp_right .inr
      rw [if_pos taken]
      simp only [if_true, List.nil_append, length_showHex, Nat.cast_zero, sub_zero]
      by_cases positive : c = 0
      · subst positive
        refine .inr ⟨by simpa using printedNow, single, ?_⟩
        have start : k = 0 := by simpa using printedNow
        rwa [start, Nat.mul_zero, pow_zero, Nat.div_one] at split
      · exact .inl (.inr ⟨split ▸ positive, 0, split ▸ single⟩)
    · have skipped : ¬ (c ≠ 0 ∨ ({} : Printing).first = false ∨ k = 0) := by
        simpa [not_or] using printedNow
      rw [if_neg skipped]
      exact .inl (.inl ⟨by simpa [not_or, split] using (not_or.mp printedNow).1, rfl⟩)
  · have taken : c ≠ 0 ∨ p.first = false ∨ k = 0 := .inr (.inl printed.first)
    rw [if_pos taken, printed.first]
    have next := printed.chunk positive bound
    rw [← split] at next
    refine .inl (.inr ⟨fun none => positive ?_, j + 1, ?_⟩)
    · omega
    · simpa using next

/-- What `cpumask_scnprintf` leaves in the buffer. -/
theorem cpumaskScnprintf_printedIn (buflen : ℕ) (mask : CpuMask) :
    ∃ j, PrintedIn buflen mask.toNat j (cpumaskScnprintf buflen mask) := by
  have walk (k : ℕ) (p : Printing) (before : PrintedFrom buflen mask (k + 1) p) :
      ∃ j, PrintedIn buflen mask.toNat j (printChunks buflen mask (k + 1) p) := by
    induction k generalizing p with
    | zero =>
      have last := printChunk_printed before
      rw [printChunks, printChunks]
      rcases last with (⟨zero, same⟩ | ⟨_, j, printed⟩) | ⟨_, printed, zero⟩
      · exact absurd same (by simp [printChunk])
      · rw [Nat.mul_zero, pow_zero, Nat.div_one] at printed
        exact ⟨j, printed⟩
      · exact ⟨0, zero ▸ printed⟩
    | succ k ih =>
      rcases printChunk_printed before with next | ⟨start, _⟩
      · exact ih _ next
      · exact absurd start (Nat.succ_ne_zero k)
  refine walk 127 {} (.inl ⟨?_, rfl⟩)
  rw [show 32 * (127 + 1) = NR_CPUS from rfl]
  exact Nat.div_eq_of_lt mask.isLt

end Irqbalance
