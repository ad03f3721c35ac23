import Irqbalance.Model.Ui

/-! # The records of an interrupt

What `get_irq_data` prints for a list of entries is a list of words, and `parse_setup` and
`parse_into_tree` read the same entries back from these words. `strtol` stops at the largest `long`,
so that a load or a difference from 2^63 on comes back as 2^63 - 1.
-/

namespace Irqbalance

open CText

/-- The words of an entry. -/
def IrqInfo.words (info : IrqInfo) : List (List Char) :=
  irqWords info.irq info.load (u64Sub info.irqCount info.lastIrqCount) info.irqClass

/-- What the user interface keeps of an entry. -/
def IrqInfo.shown (isBanned : Bool) (info : IrqInfo) : UiIrq :=
  { vector := info.irq, load := min info.load (2 ^ 63 - 1)
    diff := min (u64Sub info.irqCount info.lastIrqCount) (2 ^ 63 - 1)
    irqClass := info.irqClass, isBanned := isBanned }

section Words

variable {α : Type*} {entry : α → IrqInfo} {l : List α} {rest : List (List Char)}

theorem forEach_getIrqData (text : List Char) : forEach l (fun x => getIrqData (entry x)) text =
    text ++ spaced (l.flatMap fun x => (entry x).words) := by
  induction l generalizing text with
  | nil => exact (List.append_nil text).symm
  | cons x l ih => rw [forEach_cons, ih, getIrqData, List.flatMap_cons, spaced_append, List.append_assoc,
      IrqInfo.words]

theorem word_words {info : IrqInfo} {w : List Char} (member : w ∈ info.words) : Word w := by
  simp only [IrqInfo.words, irqWords, List.mem_cons, List.not_mem_nil, or_false] at member
  rcases member with rfl | rfl | rfl | rfl | rfl | rfl | rfl | rfl
  · decide
  · exact word_showInt
  · decide
  · exact word_showNat
  · decide
  · exact word_showNat
  · decide
  · exact word_showInt

theorem toU64_strtol_showNat {n : ℕ} : toU64 (strtol (showNat n)) = min n (2 ^ 63 - 1) := by
  rw [strtol_showNat, toU64]
  omega

/-- The entries are read back, up to the first token that starts no entry. -/
theorem parseIrqs_words (isBanned : Bool)
    (ints : ∀ x ∈ l, IsInt (entry x).irq ∧ IsInt (entry x).irqClass)
    (stop : ∀ t ∈ rest.head?, hasPrefix t "IRQ".toList = false) :
    parseIrqs isBanned (l.flatMap (fun x => (entry x).words) ++ rest) =
      some (l.map fun x => (entry x).shown isBanned, rest) := by
  induction l with
  | nil =>
    cases rest with
    | nil => rfl
    | cons t rest =>
      have other : ¬ hasPrefix t "IRQ".toList = true := by
        rw [stop t rfl]
        exact Bool.false_ne_true
      rw [List.flatMap_nil, List.nil_append, parseIrqs.eq_def]
      exact if_neg other
  | cons x l ih =>
    have tail := ih fun y member => ints y (List.mem_cons_of_mem x member)
    obtain ⟨irq, irqClass⟩ := ints x List.mem_cons_self
    have named : hasPrefix "IRQ".toList "IRQ".toList = true := rfl
    have marked : hasPrefix "LOAD".toList "LOAD".toList = true ∧
        hasPrefix "DIFF".toList "DIFF".toList = true ∧ hasPrefix "CLASS".toList "CLASS".toList = true :=
      ⟨rfl, rfl, rfl⟩
    simp only [List.flatMap_cons, IrqInfo.words, irqWords, List.cons_append, List.nil_append]
    rw [parseIrqs.eq_def]
    simp only [named, marked, and_self, if_true]
    simp only [IrqInfo.words, irqWords] at tail
    rw [tail, Option.map_some, List.map_cons, IrqInfo.shown, toInt_strtol_showInt irq,
      toInt_strtol_showInt irqClass, toU64_strtol_showNat, toU64_strtol_showNat]

end Words

end Irqbalance
