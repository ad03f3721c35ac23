import Irqbalance.Model.Interrupts

/-! # What is read from the text of /proc/interrupts

The file as the kernel prints it: a header, a line for each interrupt with a column for each CPU and a
description, and lines that start with no number. `parse_proc_interrupts` finds the numbers and the
columns again, so that reading the text is reading the lines.
-/

namespace Irqbalance

open CText

variable {K : Env} {s : State} {c rest : List Char} {fuel fuel' : ℕ}

/-- The count of a CPU behind its blanks. -/
structure Column where
  blanks : List Char
  count : ℕ
  separate : blanks ≠ []
  blank : blanks.all isBlank = true

def Column.text (c : Column) : List Char := c.blanks ++ showNat c.count

/-- A count as `strtoull` returns it. -/
def Column.value (c : Column) : ℕ := min c.count (2 ^ 64 - 1)

/-- The text does not start with a number that stands alone. -/
def NonNumeric (text : List Char) : Prop :=
  ∀ negative n rest, scanNumber text = some (negative, n, rest) → endsColumn rest = false

theorem nonNumeric_iff {text : List Char} :
    ((scanNumber text).all fun number => !endsColumn number.2.2) = true ↔ NonNumeric text := by
  unfold NonNumeric
  cases scanNumber text with
  | none => simp
  | some number =>
    obtain ⟨negative, n, rest⟩ := number
    rw [Option.all_some, Bool.not_eq_true']
    refine ⟨fun stands _ _ _ same => ?_, fun stands => stands negative n rest rfl⟩
    cases same
    exact stands

instance (text : List Char) : Decidable (NonNumeric text) := decidable_of_iff _ nonNumeric_iff

/-- The line of an interrupt, without its newline. -/
structure IrqLine where
  indent : List Char
  irq : ℕ
  columns : List Column
  description : List Char
  blank : indent.all isBlank = true
  int : irq < 2 ^ 31
  separate : description.head?.any isBlank = true
  nonNumeric : NonNumeric (description ++ ['\n'])
  line : '\n' ∉ description
  nul : '\x00' ∉ description

def IrqLine.text (l : IrqLine) : List Char :=
  l.indent ++ (showNat l.irq ++ ':' :: (l.columns.flatMap Column.text ++ l.description))

/-- A line such as the one of the non-maskable interrupts. -/
structure SpecialLine where
  text : List Char
  letter : (text.dropWhile isBlank).head?.any Char.isDigit = false
  line : '\n' ∉ text
  nul : '\x00' ∉ text

/-- The file, in which each interrupt has one line. -/
structure InterruptsFile where
  header : List Char
  lines : List IrqLine
  special : List SpecialLine
  line : '\n' ∉ header
  distinct : (lines.map IrqLine.irq).Nodup

def InterruptsFile.text (file : InterruptsFile) : List Char :=
  (file.header :: (file.lines.map IrqLine.text ++ file.special.map SpecialLine.text)).flatMap (· ++ ['\n'])

/-- What is read from a line. -/
def IrqLine.procLine (l : IrqLine) : ProcLine where
  irq := l.irq
  hint := initIrqClassAndType (l.text ++ ['\n']) l.irq
  counts := l.columns.map Column.value

section Columns

/-- A text that goes on with a blank. -/
theorem ends_of_blank (separate : rest.head?.any isBlank = true) : Ends rest ∧ endsColumn rest = true := by
  cases rest with
  | nil => contradiction
  | cons c rest =>
    have blank : isBlank c = true := separate
    refine ⟨fun c' head => ?_, blank⟩
    obtain rfl := Option.some.inj head
    by_contra digit
    rw [isBlank_of_isDigit (Bool.not_eq_false _ ▸ digit)] at blank
    contradiction

theorem Column.text_head (c : Column) (rest : List Char) : (c.text ++ rest).head?.any isBlank = true := by
  obtain ⟨b, blanks, shape⟩ := List.exists_cons_of_ne_nil c.separate
  rw [Column.text, shape]
  exact List.all_eq_true.mp c.blank b (shape ▸ List.mem_cons_self)

/-- The columns are read one by one, up to the description. -/
theorem readColumns_columns (columns : List Column) (separate : rest.head?.any isBlank = true)
    (nonNumeric : NonNumeric rest) (enough : columns.length < fuel) :
    readColumns fuel (columns.flatMap Column.text ++ rest) = columns.map Column.value := by
  induction columns generalizing fuel with
  | nil =>
    obtain ⟨fuel, rfl⟩ := Nat.exists_eq_succ_of_ne_zero (Nat.ne_of_gt enough)
    have stops : (strtoul rest).2.length = rest.length ∨ endsColumn (strtoul rest).2 = false := by
      unfold strtoul
      cases scanned : scanNumber rest with
      | none => exact .inl rfl
      | some number =>
        obtain ⟨negative, n, text⟩ := number
        exact .inr (nonNumeric negative n text scanned)
    exact if_pos stops
  | cons c columns ih =>
    obtain ⟨fuel, rfl⟩ := Nat.exists_eq_succ_of_ne_zero (Nat.ne_of_gt (Nat.zero_lt_of_lt enough))
    have next : (columns.flatMap Column.text ++ rest).head?.any isBlank = true := by
      cases columns with
      | nil => exact separate
      | cons c' columns =>
        rw [List.flatMap_cons, List.append_assoc]
        exact c'.text_head _
    obtain ⟨ends, goesOn⟩ := ends_of_blank next
    have others := ih (Nat.lt_of_succ_lt_succ enough)
    rw [List.flatMap_cons, Column.text, List.append_assoc, List.append_assoc]
    generalize columns.flatMap Column.text ++ rest = tail at ends goesOn others ⊢
    have progress : tail.length ≠ (c.blanks ++ (showNat c.count ++ tail)).length := by
      have some := List.length_pos_iff.mpr c.separate
      simp only [List.length_append]
      omega
    have read : strtoul (c.blanks ++ (showNat c.count ++ tail)) = (c.value, tail) := strtoul_showNat (List.all_eq_true.mp c.blank) ends
    have continues : ¬ (tail.length = (c.blanks ++ (showNat c.count ++ tail)).length ∨ endsColumn tail = false) := by
      rw [goesOn]
      exact fun stops => stops.elim progress nofun
    rw [readColumns, read]
    dsimp only
    rw [if_neg continues, others]
    rfl

theorem readColumns_nil : readColumns fuel [] = [] := by
  cases fuel <;> rfl

/-- As much fuel as the text is long is enough. -/
theorem readColumns_fuel (enough : c.length ≤ fuel) (enough' : c.length ≤ fuel') :
    readColumns fuel c = readColumns fuel' c := by
  induction fuel generalizing c fuel' with
  | zero =>
    rw [List.eq_nil_of_length_eq_zero (Nat.le_zero.mp enough), readColumns_nil, readColumns_nil]
  | succ fuel ih =>
    cases fuel' with
    | zero => rw [List.eq_nil_of_length_eq_zero (Nat.le_zero.mp enough'), readColumns_nil, readColumns_nil]
    | succ fuel' =>
      rw [readColumns, readColumns]
      dsimp only
      by_cases stops : (strtoul c).2.length = c.length ∨ endsColumn (strtoul c).2 = false
      · rw [if_pos stops, if_pos stops]
      · have shorter : (strtoul c).2.length < c.length :=
          strtoul_length_le.lt_of_ne fun same => stops (.inl same)
        have others : readColumns fuel (strtoul c).2 = readColumns fuel' (strtoul c).2 := ih (by omega) (by omega)
        rw [if_neg stops, if_neg stops, others]

end Columns

section Lines

/-- The line consists of blanks, digits, a colon and the description. -/
theorem IrqLine.not_mem_text (l : IrqLine) {c : Char} (blank : isBlank c = false) (digit : c.isDigit = false)
    (colon : c ≠ ':') (description : c ∉ l.description) : c ∉ l.text := by
  have blank' {c' : Char} (other : isBlank c' = true) : c ≠ c' := by
    rintro rfl
    rw [other] at blank
    contradiction
  have digit' {n : ℕ} {c' : Char} (member : c' ∈ showNat n) : c ≠ c' := by
    rintro rfl
    rw [isDigit_showNat member] at digit
    contradiction
  intro member
  simp only [IrqLine.text, Column.text, List.mem_append, List.mem_cons, List.mem_flatMap] at member
  rcases member with indent | irq | same | ⟨column, _, blanks | count⟩ | within
  · exact blank' (List.all_eq_true.mp l.blank _ indent) rfl
  · exact digit' irq rfl
  · exact colon same
  · exact blank' (List.all_eq_true.mp column.blank _ blanks) rfl
  · exact digit' count rfl
  · exact description within

/-- The line is a string as a whole. -/
theorem IrqLine.cString_text (l : IrqLine) : cString (l.text ++ ['\n']) = l.text ++ ['\n'] := by
  apply cString_eq_self
  intro nul
  rcases List.mem_append.mp nul with inside | newline
  · exact l.not_mem_text rfl (by decide) (by decide) l.nul inside
  · simp at newline

/-- The line starts with a number, which stands in front of the first colon. -/
theorem IrqLine.text_number (l : IrqLine) :
    ((l.text ++ ['\n']).dropWhile isBlank).head?.any Char.isDigit = true ∧
      (l.text ++ ['\n']).takeWhile (· != ':') = l.indent ++ showNat l.irq ∧
        (l.text ++ ['\n']).dropWhile (· != ':') =
          ':' :: (l.columns.flatMap Column.text ++ (l.description ++ ['\n'])) := by
  have shape : l.text ++ ['\n'] = (l.indent ++ showNat l.irq) ++
      ':' :: (l.columns.flatMap Column.text ++ (l.description ++ ['\n'])) := by
    simp [IrqLine.text]
  have before : ∀ c ∈ l.indent ++ showNat l.irq, (c != ':') = true := by
    intro c member
    rw [bne_iff_ne]
    rintro rfl
    rcases List.mem_append.mp member with indent | digit
    · exact absurd (List.all_eq_true.mp l.blank _ indent) (by decide)
    · exact absurd (isDigit_showNat digit) (by decide)
  rw [shape]
  refine ⟨?_, ?_, ?_⟩
  · obtain ⟨c, digits, shown, digit⟩ := showNat_cons (n := l.irq)
    rw [shown, List.append_assoc, List.dropWhile_append_of_pos (List.all_eq_true.mp l.blank), List.cons_append,
      List.dropWhile_cons_of_neg (by simp [isBlank_of_isDigit digit])]
    exact digit
  · rw [List.takeWhile_append_of_pos before, List.takeWhile_cons_of_neg (by decide), List.append_nil]
  · rw [List.dropWhile_append_of_pos before, List.dropWhile_cons_of_neg (by decide)]

/-- The number of the line is read back. -/
theorem IrqLine.read_number (l : IrqLine) : toInt (strtoul (l.indent ++ showNat l.irq)).1 = l.irq := by
  have read := strtoul_showNat (n := l.irq) (List.all_eq_true.mp l.blank) ends_nil
  rw [List.append_nil] at read
  have int := l.int
  have small : min l.irq (2 ^ 64 - 1) = l.irq := by omega
  rw [read, small]
  exact toInt_of_isInt ⟨by omega, by omega⟩

/-- The columns of the line are read back. -/
theorem IrqLine.read_columns (l : IrqLine) :
    let c := l.columns.flatMap Column.text ++ (l.description ++ ['\n'])
    readColumns c.length c = l.columns.map Column.value := by
  intro c
  have separate : (l.description ++ ['\n']).head?.any isBlank = true := by
    have blank := l.separate
    cases description : l.description with
    | nil =>
      rw [description] at blank
      contradiction
    | cons b rest =>
      rw [description] at blank
      exact blank
  have more : readColumns c.length c = readColumns (c.length + (l.columns.length + 1)) c :=
    readColumns_fuel le_rfl (Nat.le_add_right _ _)
  rw [more]
  exact readColumns_columns l.columns separate l.nonNumeric (by omega)

/-- The lines behind those of the interrupts end the loop. -/
theorem parseProcText_special (src : IrqSources) (special : List SpecialLine) :
    parseProcText K src (special.map fun x => x.text ++ ['\n']) s = (s, false) := by
  cases special with
  | nil => rfl
  | cons x special =>
    have whole : cString (x.text ++ ['\n']) = x.text ++ ['\n'] := by
      apply cString_eq_self
      intro nul
      rcases List.mem_append.mp nul with inside | newline
      · exact x.nul inside
      · simp at newline
    have letter : ((x.text ++ ['\n']).dropWhile isBlank).head?.any Char.isDigit = false := by
      have first := x.letter
      rw [List.dropWhile_append]
      split
      · rfl
      · rename_i some
        obtain ⟨c, rest, shape⟩ := List.exists_cons_of_ne_nil fun none => some (List.isEmpty_iff.mpr none)
        rw [shape] at first ⊢
        exact first
    rw [List.map_cons, parseProcText]
    dsimp only
    rw [whole, letter]
    rfl

/-- Reading the lines of the file as text is reading the numbers and the columns. -/
theorem parseProcText_eq (src : IrqSources) (lines : List IrqLine) (special : List SpecialLine) :
    parseProcText K src (lines.map (fun l => l.text ++ ['\n']) ++ special.map fun x => x.text ++ ['\n']) s =
      parseProcLines K src (lines.map IrqLine.procLine) s := by
  induction lines generalizing s with
  | nil => exact parseProcText_special src special
  | cons l lines ih =>
    obtain ⟨digit, number, behind⟩ := l.text_number
    have colon : ':' ∈ l.text ++ ['\n'] := by simp [IrqLine.text]
    rw [List.map_cons, List.cons_append, List.map_cons, parseProcText, parseProcLines]
    dsimp only
    rw [l.cString_text, digit, number, behind, l.read_number, List.tail_cons, l.read_columns]
    simp only [Bool.not_true, Bool.false_eq_true, if_false, colon, not_true, ih]
    rfl

/-- What is read from the text of the file is what is in its lines. -/
theorem parseProcInterruptsText_eq (src : IrqSources) (file : InterruptsFile) (d : Daemon) :
    parseProcInterruptsText K src file.text d =
      parseProcInterrupts K { lines := some (file.lines.map IrqLine.procLine), src := src } d := by
  have lines : getLines file.text = (file.header ++ ['\n']) ::
      (file.lines.map (fun l => l.text ++ ['\n']) ++ file.special.map fun x => x.text ++ ['\n']) := by
    rw [InterruptsFile.text, getLines_flatMap]
    · rw [List.map_cons, List.map_append, List.map_map, List.map_map]
      rfl
    · intro l member
      rcases List.mem_cons.mp member with rfl | member
      · exact file.line
      rcases List.mem_append.mp member with numbered | special
      · obtain ⟨l, _, rfl⟩ := List.mem_map.mp numbered
        exact l.not_mem_text rfl (by decide) (by decide) l.line
      · obtain ⟨x, _, rfl⟩ := List.mem_map.mp special
        exact x.line
  unfold parseProcInterruptsText parseProcInterrupts
  rw [lines]
  dsimp only
  rw [parseProcText_eq]

end Lines

end Irqbalance
