import Irqbalance.Proofs.MaskText
import Irqbalance.Proofs.Records
import Mathlib.Data.Nat.Bitwise
import Mathlib.Tactic.Positivity

/-! # The setup reply

The daemon's reply to `setup` and what `parse_setup` makes of it. The mask is printed in chunks of
eight hex digits, from its highest chunk that is not zero, into a buffer of 512 bytes, which holds 56
chunks. Behind that the last digits are lost, and what is left denotes another number.
-/

namespace Irqbalance

open CText

/-- The buffer after the `k + 1` chunks of a number. -/
structure Printed (v k : ℕ) (p : Printing) : Prop where
  high : k = 0 ∨ 2 ^ (32 * k) ≤ v
  low : v < 2 ^ (32 * (k + 1))
  text : p.text = (chunkText k v).take 511
  len : p.len = 9 * k + 8
  sizes : k ≤ 57 → ∀ size ∈ p.sizes, 0 ≤ size
  first : p.first = false

section Printing

variable {v k j n w : ℕ} {p : Printing} {mask : CpuMask}

theorem reverse_showHex : (showHex (w + 1) n).reverse = Nat.digitChar (n % 16) :: (showHex w (n / 16)).reverse := by
  rw [showHex, List.reverse_append, List.reverse_singleton, List.singleton_append]

/-- The number of chunks bounds the number. -/
theorem Printed.few (printed : Printed v k p) (j : ℕ) : v < 2 ^ (32 * (j + 1)) ↔ k ≤ j := by
  constructor
  · intro small
    rcases printed.high with rfl | high
    · exact Nat.zero_le j
    · have less := (Nat.pow_lt_pow_iff_right (by decide)).mp (high.trans_lt small)
      omega
  · intro few
    exact lt_of_lt_of_le printed.low (Nat.pow_le_pow_right (by decide) (by omega))

/-- What `cpumask_scnprintf` leaves in the buffer of the reply. -/
theorem cpumaskScnprintf_printed : ∃ j, Printed mask.toNat j (cpumaskScnprintf 512 mask) := by
  obtain ⟨j, printed⟩ := cpumaskScnprintf_printedIn 512 mask
  refine ⟨j, printed.high, printed.low, printed.text, printed.len, ?_, printed.first⟩
  intro few size member
  rcases printed.sizes size member with whole | bound
  · omega
  · omega

end Printing

section Decoding

/-- The bits of a number below a place, in ascending order. -/
def ones (m v : ℕ) : List ℕ := (List.range m).filter v.testBit

/-- A text of hex digits and commas, from its last character to its first: how many digits there
are, and their number. -/
inductive Denotes : List Char → ℕ → ℕ → Prop
  | nil : Denotes [] 0 0
  | comma {t : List Char} {m v : ℕ} (rest : Denotes t m v) : Denotes (',' :: t) m v
  | digit {t : List Char} {m v d : ℕ} (small : d < 16) (rest : Denotes t m v) :
      Denotes (Nat.digitChar d :: t) (m + 1) (d + 16 * v)

variable {t : List Char} {u v n m w k : ℕ}

theorem mem_ones (bound : v < 2 ^ m) {i : ℕ} : i ∈ ones m v ↔ v.testBit i = true := by
  rw [ones, List.mem_filter, List.mem_range, and_iff_right_iff_imp]
  intro set
  by_contra above
  have small : v < 2 ^ i := lt_of_lt_of_le bound (Nat.pow_le_pow_right (by decide) (not_lt.mp above))
  rw [Nat.testBit_lt_two_pow small] at set
  contradiction

theorem ones_congr (first : v < 2 ^ m) (second : v < 2 ^ n) : ones m v = ones n v := by
  have sorted (k : ℕ) : (ones k v).Pairwise (· < ·) := List.pairwise_lt_range.filter _
  apply List.Pairwise.eq_of_mem_iff (sorted m) (sorted n)
  intro i
  rw [mem_ones first, mem_ones second]

theorem ones_injective (first : u < 2 ^ m) (second : v < 2 ^ n) (same : ones m u = ones n v) : u = v := by
  apply Nat.eq_of_testBit_eq
  intro i
  apply Bool.eq_iff_iff.mpr
  rw [← mem_ones first, ← mem_ones second, same]

/-- The bits of a digit stand below those of the digits in front of it. -/
theorem ones_digit {d : ℕ} (small : d < 16) :
    ones (4 * (m + 1)) (d + 16 * v) = ones 4 d ++ (ones (4 * m) v).map (4 + ·) := by
  have bit (i : ℕ) : (d + 16 * v).testBit i = if i < 4 then d.testBit i else v.testBit (i - 4) := by
    rw [Nat.add_comm]
    exact Nat.testBit_two_pow_mul_add v (i := 4) small i
  have low : (List.range 4).filter (d + 16 * v).testBit = ones 4 d := by
    apply List.filter_congr
    intro i member
    rw [bit, if_pos (List.mem_range.mp member)]
  have high : (d + 16 * v).testBit ∘ (4 + ·) = v.testBit := by
    funext i
    rw [Function.comp_apply, bit, if_neg (by omega), Nat.add_sub_cancel_left]
  rw [ones, show 4 * (m + 1) = 4 + 4 * m by omega, List.range_add, List.filter_append, low, List.filter_map, high,
    ones, ones]

/-- The four bits of a digit. -/
theorem hexToBitmap_digitChar {d : ℕ} (small : d < 16) : ∃ map, hexToBitmap (Nat.digitChar d) = some map ∧
    (List.range 4).filter (fun j => map.reverse[j]? == some '1') = ones 4 d := by
  have each : ∀ d < 16, (hexToBitmap (Nat.digitChar d)).map (fun map =>
      (List.range 4).filter fun j => map.reverse[j]? == some '1') = some (ones 4 d) := by decide
  exact Option.map_eq_some_iff.mp (each d small)

theorem digitChar_ne_comma {d : ℕ} (small : d < 16) : Nat.digitChar d ≠ ',' := by
  have each : ∀ d < 16, Nat.digitChar d ≠ ',' := by decide
  exact each d small

theorem Denotes.bound (denotes : Denotes t m v) : v < 2 ^ (4 * m) := by
  induction denotes with
  | nil => decide
  | comma _ ih => exact ih
  | digit small _ ih =>
    rw [Nat.mul_succ, pow_add]
    omega

/-- The mask is read bit by bit. -/
theorem parseMask_denotes (denotes : Denotes t m v) (cpu : ℕ) :
    parseMask t cpu = some ((ones (4 * m) v).map (cpu + ·)) := by
  induction denotes generalizing cpu with
  | nil => rfl
  | comma _ ih => rw [parseMask, if_pos rfl, ih]
  | digit small _ ih =>
    obtain ⟨map, decoded, set⟩ := hexToBitmap_digitChar small
    rw [parseMask, if_neg (digitChar_ne_comma small), decoded]
    simp only [set, ih, Option.map_some, ones_digit small, List.map_append, List.map_map, Function.comp_def,
      Nat.add_assoc]

theorem denotes_showHex (denotes : Denotes t m u) (small : v < 16 ^ w) :
    Denotes ((showHex w v).reverse ++ t) (m + w) (v + 16 ^ w * u) := by
  induction w generalizing v with
  | zero =>
    obtain rfl : v = 0 := by simpa using small
    simpa [showHex] using denotes
  | succ w ih =>
    have high : v / 16 < 16 ^ w := by
      rw [pow_succ] at small
      omega
    have value : v + 16 ^ (w + 1) * u = v % 16 + 16 * (v / 16 + 16 ^ w * u) := by
      rw [pow_succ, mul_comm (16 ^ w) 16, mul_assoc, Nat.mul_add]
      omega
    rw [reverse_showHex, List.cons_append, value]
    exact .digit (Nat.mod_lt v (by decide)) (ih high)

theorem denotes_chunkText (small : v < 2 ^ (32 * (k + 1))) :
    ∃ m, Denotes (chunkText k v).reverse m v := by
  induction k generalizing v with
  | zero => exact ⟨8, by simpa [chunkText] using denotes_showHex (w := 8) .nil small⟩
  | succ k ih =>
    have high : v / 2 ^ 32 < 2 ^ (32 * (k + 1)) := div_chunk_lt small
    obtain ⟨m, upper⟩ := ih high
    have low := denotes_showHex (w := 8) (v := v % 2 ^ 32) (.comma upper) (Nat.mod_lt v (by decide))
    have value : v % 2 ^ 32 + 16 ^ 8 * (v / 2 ^ 32) = v := by omega
    rw [value] at low
    exact ⟨m + 8, by simpa [chunkText] using low⟩

/-- Without its last characters a text denotes less. -/
theorem Denotes.drop (denotes : Denotes t m v) (n : ℕ) : ∃ m' u, u ≤ v ∧ Denotes (t.drop n) m' u := by
  induction denotes generalizing n with
  | nil => exact ⟨0, 0, le_refl 0, by rw [List.drop_nil]; exact .nil⟩
  | comma rest ih =>
    cases n with
    | zero => exact ⟨_, _, le_refl _, .comma rest⟩
    | succ n => exact ih n
  | digit small rest ih =>
    cases n with
    | zero => exact ⟨_, _, le_refl _, .digit small rest⟩
    | succ n =>
      obtain ⟨m', u, bound, dropped⟩ := ih n
      exact ⟨m', u, by omega, dropped⟩

/-- The last character of the chunks is a digit, without which their number shrinks. -/
theorem denotes_drop_chunkText (small : v < 2 ^ (32 * (k + 1))) (n : ℕ) :
    ∃ m u, 16 * u ≤ v ∧ Denotes ((chunkText k v).reverse.drop (n + 1)) m u := by
  obtain ⟨m, denotes⟩ := denotes_chunkText small
  obtain ⟨d, t, digit, text⟩ : ∃ d t, d < 16 ∧ (chunkText k v).reverse = Nat.digitChar d :: t := by
    cases k with
    | zero => exact ⟨v % 16, _, Nat.mod_lt v (by decide), reverse_showHex⟩
    | succ k =>
      refine ⟨v % 2 ^ 32 % 16, (showHex 7 (v % 2 ^ 32 / 16)).reverse ++ ',' :: (chunkText k (v / 2 ^ 32)).reverse,
        Nat.mod_lt _ (by decide), ?_⟩
      rw [chunkText, List.reverse_append, List.reverse_cons, reverse_showHex, List.append_assoc]
      rfl
  rw [text] at denotes ⊢
  rw [List.drop_succ_cons]
  generalize shown : Nat.digitChar d :: t = whole at denotes
  cases denotes with
  | nil => contradiction
  | comma _ => exact absurd (List.cons.inj shown).1 (digitChar_ne_comma digit)
  | digit _ rest =>
    obtain ⟨_, rfl⟩ := List.cons.inj shown
    obtain ⟨m', u, bound, dropped⟩ := rest.drop n
    exact ⟨m', u, by omega, dropped⟩

end Decoding

section Reply

variable {v k : ℕ} {c : Settings} {banned : CpuMask}

/-- What is in the buffer is read as the number of the mask, or as a smaller one if it was cut. -/
theorem parseMask_printed {p : Printing} (printed : Printed v k p) : ∃ m u, u < 2 ^ (4 * m) ∧
    parseMask p.text.reverse 0 = some (ones (4 * m) u) ∧ (k ≤ 55 → u = v) ∧ (56 ≤ k → 16 * u ≤ v) := by
  have read {m u : ℕ} (denotes : Denotes p.text.reverse m u) :
      parseMask p.text.reverse 0 = some (ones (4 * m) u) := by
    rw [parseMask_denotes denotes]
    simp
  have length := length_chunkText (k := k) (v := v)
  by_cases fits : k ≤ 55
  · have whole : p.text = chunkText k v := by rw [printed.text, List.take_of_length_le (by omega)]
    obtain ⟨m, denotes⟩ := denotes_chunkText printed.low
    rw [← whole] at denotes
    exact ⟨m, v, denotes.bound, read denotes, fun _ => rfl, fun long => by omega⟩
  · have cut : p.text.reverse = (chunkText k v).reverse.drop (9 * k + 7 - 511 + 1) := by
      have amount : 9 * k + 8 - 511 = 9 * k + 7 - 511 + 1 := by omega
      rw [printed.text, List.reverse_take, length, amount]
    obtain ⟨m, u, less, denotes⟩ := denotes_drop_chunkText printed.low (9 * k + 7 - 511)
    rw [← cut] at denotes
    exact ⟨m, u, denotes.bound, read denotes, fun short => absurd short fits, fun _ => less⟩

theorem isXDigit_showHex {w n : ℕ} : ∀ x ∈ showHex w n, x ≠ ' ' := by
  induction w generalizing n with
  | zero => simp [showHex]
  | succ w ih =>
    intro x member
    rcases List.mem_append.mp member with high | low
    · exact ih x high
    · have each : ∀ d < 16, Nat.digitChar d ≠ ' ' := by decide
      rw [List.mem_singleton.mp low]
      exact each _ (Nat.mod_lt n (by decide))

theorem word_printed {p : Printing} (printed : Printed v k p) : Word p.text := by
  have noBlank : ∀ x ∈ chunkText k v, x ≠ ' ' := by
    clear printed
    induction k generalizing v with
    | zero => exact isXDigit_showHex
    | succ k ih =>
      intro x member
      rcases List.mem_append.mp member with high | low
      · exact ih x high
      · rcases List.mem_cons.mp low with rfl | digit
        · decide
        · exact isXDigit_showHex x digit
  rw [printed.text]
  refine ⟨fun none => ?_, fun blank => noBlank ' ' (List.mem_of_mem_take blank) rfl⟩
  have length := congrArg List.length none
  rw [List.length_take, length_chunkText, List.length_nil] at length
  omega

theorem tokens_setup : tokens (setup c banned).1 =
    "SLEEP".toList :: showInt c.sleepInterval ::
      (c.clBannedIrqs.flatMap (fun irq => (bannedInfo irq).words) ++
        ["BANNED".toList, (setup c banned).2.text]) := by
  obtain ⟨k, printed⟩ : ∃ j, Printed banned.toNat j (cpumaskScnprintf 512 banned) := cpumaskScnprintf_printed
  have text : (setup c banned).1 = spaced (["SLEEP".toList, showInt c.sleepInterval] ++
      c.clBannedIrqs.flatMap (fun irq => (bannedInfo irq).words) ++ ["BANNED".toList]) ++
        (cpumaskScnprintf 512 banned).text := by
    have irqs : forEach (c.clBannedIrqs.map bannedInfo) getIrqData
        ("SLEEP ".toList ++ showInt c.sleepInterval ++ [' ']) =
          ("SLEEP ".toList ++ showInt c.sleepInterval ++ [' ']) ++
            spaced ((c.clBannedIrqs.map bannedInfo).flatMap IrqInfo.words) := forEach_getIrqData _
    rw [List.flatMap_map] at irqs
    rw [spaced_append, spaced_append]
    exact congrArg (· ++ "BANNED ".toList ++ (cpumaskScnprintf 512 banned).text) (irqs.trans (by simp [spaced]))
  have words : ∀ w ∈ ["SLEEP".toList, showInt c.sleepInterval] ++
      c.clBannedIrqs.flatMap (fun irq => (bannedInfo irq).words) ++ ["BANNED".toList], Word w := by
    intro w member
    rcases List.mem_append.mp member with front | last
    · rcases List.mem_append.mp front with head | entry
      · rcases List.mem_cons.mp head with rfl | number
        · decide
        · rw [List.mem_singleton.mp number]
          exact word_showInt
      · obtain ⟨irq, _, word⟩ := List.mem_flatMap.mp entry
        exact word_words word
    · rw [List.mem_singleton.mp last]
      decide
  rw [text, tokens_spaced words, tokens_last (word_printed printed)]
  simp [setup]

end Reply

/-- The CPUs of a mask, in ascending order. -/
def cpusOf (mask : CpuMask) : List ℕ := (List.range NR_CPUS).filter mask.getLsbD

/-- The user interface reads what the daemon holds, and no size wraps while the mask is printed. -/
def SetupRoundTrip (c : Settings) (banned : CpuMask) : Prop :=
  (∃ data, parseSetup (setup c banned).1 = some data ∧ (data.sleep : ℤ) = c.sleepInterval ∧
    data.bannedIrqs.map (·.vector) = c.clBannedIrqs ∧ data.bannedCpus = cpusOf banned) ∧
      ∀ size ∈ (setup c banned).2.sizes, 0 ≤ size

theorem parseSetup_setup {c : Settings} (banned : CpuMask) (int : IsInt c.sleepInterval)
    (ints : ∀ irq ∈ c.clBannedIrqs, IsInt irq) :
    parseSetup (setup c banned).1 = (parseMask (setup c banned).2.text.reverse 0).map fun cpus =>
      ⟨toU64 c.sleepInterval, c.clBannedIrqs.map fun irq => (bannedInfo irq).shown true, cpus⟩ := by
  have read : parseIrqs true (c.clBannedIrqs.flatMap (fun irq => (bannedInfo irq).words) ++
      ["BANNED".toList, (setup c banned).2.text]) =
        some (c.clBannedIrqs.map fun irq => (bannedInfo irq).shown true,
          ["BANNED".toList, (setup c banned).2.text]) :=
    parseIrqs_words true (fun irq member => ⟨ints irq member, show IsInt 0 by decide⟩) (by rintro _ ⟨⟩; decide)
  have sleep : hasPrefix "SLEEP".toList "SLEEP".toList = true := rfl
  have mask : hasPrefix "BANNED".toList "BANNED".toList = true := rfl
  obtain ⟨low, high⟩ := int
  simp only [parseSetup, tokens_setup, read, sleep, mask, Bool.not_true, Bool.false_eq_true, if_false,
    strtol_showInt (show -2 ^ 63 ≤ c.sleepInterval by omega) (show c.sleepInterval < 2 ^ 63 by omega)]

/-- The reply is read back exactly when no CPU from 1792 on is banned. -/
theorem setup_roundTrip (c : Settings) (banned : CpuMask) (positive : 1 ≤ c.sleepInterval)
    (int : IsInt c.sleepInterval) (ints : ∀ irq ∈ c.clBannedIrqs, IsInt irq) :
    SetupRoundTrip c banned ↔ banned.toNat < 2 ^ 1792 := by
  obtain ⟨k, printed⟩ : ∃ j, Printed banned.toNat j (cpumaskScnprintf 512 banned) := cpumaskScnprintf_printed
  obtain ⟨m, u, bound, read, whole, cut⟩ := parseMask_printed printed
  have parsed := parseSetup_setup banned int ints
  have bits : cpusOf banned = ones NR_CPUS banned.toNat := rfl
  rw [show (setup c banned).2 = cpumaskScnprintf 512 banned from rfl, read, Option.map_some] at parsed
  have few := printed.few 55
  rw [show 32 * (55 + 1) = 1792 from rfl] at few
  rw [few]
  constructor
  · rintro ⟨⟨data, decoded, _, _, cpus⟩, _⟩
    by_contra many
    obtain rfl := Option.some.inj (parsed.symm.trans decoded)
    rw [bits] at cpus
    have same := ones_injective bound banned.isLt cpus
    have less := cut (by omega)
    have none : banned.toNat = 0 := by omega
    refine many (few.mp ?_)
    rw [none]
    positivity
  · intro fits
    refine ⟨⟨_, parsed, ?_, ?_, ?_⟩, printed.sizes (by omega)⟩
    · obtain ⟨low, high⟩ := int
      simp only [toU64]
      omega
    · simp [IrqInfo.shown, bannedInfo, Function.comp_def]
    · obtain rfl := whole fits
      rw [bits]
      exact ones_congr bound banned.isLt

theorem setup_roundTrip_two :
    SetupRoundTrip { sleepInterval := 10, clBannedIrqs := [24] } (BitVec.ofNat NR_CPUS 6) :=
  (setup_roundTrip { sleepInterval := 10, clBannedIrqs := [24] } (BitVec.ofNat NR_CPUS 6) (by decide)
    (by decide) (by decide)).mpr (by decide +kernel)

/-- With CPU 1792 banned the last digit is lost, and the interface reads CPU 1788. -/
theorem setup_roundTrip_1792 : ¬ SetupRoundTrip { sleepInterval := 10 } (cpumaskOfCpu 1792) := by
  rintro ⟨⟨data, parsed, _, _, cpus⟩, _⟩
  have read : (parseSetup (setup { sleepInterval := 10 } (cpumaskOfCpu 1792)).1).map (·.bannedCpus) =
      some [1788] := by decide +kernel
  rw [parsed, Option.map_some, cpus] at read
  have other : 1788 ∉ cpusOf (cpumaskOfCpu 1792) := by decide +kernel
  exact other (Option.some.inj read ▸ List.mem_singleton_self 1788)

end Irqbalance
