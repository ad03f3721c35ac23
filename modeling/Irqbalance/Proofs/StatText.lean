import Irqbalance.Model.StatText
import Irqbalance.Proofs.InterruptsText

/-! # What is read from the text of /proc/stat

The file as the kernel prints it: the sum over all CPUs, a line for each CPU with its times, and lines without CPUs.
`parse_proc_stat` finds the number and the two times in interrupts of each line again.
-/

namespace Irqbalance

open CText

variable {s : State} {rest : List Char} {ns : ℕ → ℕ}

/-- The line of a CPU, without its newline: five times before those in interrupts, and any number behind them. -/
structure CpuLine where
  number : ℕ
  before : List Column
  irq : Column
  softirq : Column
  after : List Column
  inside : number < NR_CPUS
  five : before.length = 5

def CpuLine.columns (l : CpuLine) : List Column := l.before ++ l.irq :: l.softirq :: l.after

def CpuLine.text (l : CpuLine) : List Char := "cpu".toList ++ (showNat l.number ++ l.columns.flatMap Column.text)

/-- What is read from the line. -/
def CpuLine.statLine (l : CpuLine) : StatLine := ⟨l.number, some (l.irq.value, l.softirq.value)⟩

/-- The file, whose lines behind those of the CPUs have no `cpu` in the first of them. -/
structure StatFile where
  header : List Char
  cpus : List CpuLine
  others : List (List Char)
  line : ∀ l ∈ header :: others, '\n' ∉ l
  other : ∀ l ∈ others.head?, ¬ "cpu".toList <:+: l ++ ['\n']

def StatFile.text (file : StatFile) : List Char :=
  (file.header :: (file.cpus.map CpuLine.text ++ file.others)).flatMap (· ++ ['\n'])

section Scanning

theorem Column.ends (c : Column) (rest : List Char) : Ends (c.text ++ rest) := (ends_of_blank (c.text_head rest)).1

theorem ends_columns (columns : List Column) (ends : Ends rest) : Ends (columns.flatMap Column.text ++ rest) := by
  cases columns with
  | nil => exact ends
  | cons c columns =>
    rw [List.flatMap_cons, List.append_assoc]
    exact c.ends _

theorem scanUnsigned_column (c : Column) (ends : Ends rest) : scanUnsigned (c.text ++ rest) = some (c.value, rest) := by
  have spaces := List.all_eq_true.mp c.blank
  have scanned : scanNumber (c.blanks ++ (showNat c.count ++ rest)) = some (decide ((c.count : ℤ) < 0), c.count, rest) := by
    rw [scanNumber_spaces fun c member => isSpace_of_isBlank (spaces c member)]
    exact scanNumber_showInt (z := c.count) ends
  rw [scanUnsigned, Column.text, List.append_assoc, scanned, Option.map_some, strtoul_showNat spaces ends]
  rfl

theorem skipUnsigned_columns (columns : List Column) (ends : Ends rest) :
    skipUnsigned columns.length (columns.flatMap Column.text ++ rest) = some rest := by
  induction columns with
  | nil => rfl
  | cons c columns ih =>
    rw [List.flatMap_cons, List.append_assoc, List.length_cons, skipUnsigned,
      scanUnsigned_column c (ends_columns columns ends)]
    exact ih

/-- The first word of the line is the name of the CPU. -/
theorem scanWord_cpu (number : ℕ) (c : Column) (rest : List Char) :
    scanWord ("cpu".toList ++ (showNat number ++ (c.text ++ rest))) = some (c.text ++ rest) := by
  obtain ⟨b, blanks, shape⟩ := List.exists_cons_of_ne_nil c.separate
  have blank : isBlank b = true := List.all_eq_true.mp c.blank b (shape ▸ List.mem_cons_self)
  have digits : ∀ c ∈ showNat number, (!isSpace c) = true := by
    intro c member
    rw [isSpace_of_isDigit (isDigit_showNat member)]
    rfl
  have letters : ∀ c ∈ "cpu".toList, (!isSpace c) = true := List.all_eq_true.mp (by decide)
  have stop : (c.text ++ rest).dropWhile (fun c => !isSpace c) = c.text ++ rest := by
    rw [Column.text, shape, List.append_assoc, List.cons_append, List.dropWhile_cons_of_neg]
    rw [isSpace_of_isBlank blank]
    decide
  have first (t : List Char) : ("cpu".toList ++ t).dropWhile isSpace = "cpu".toList ++ t :=
    List.dropWhile_cons_of_neg (by decide)
  rw [scanWord, first, if_neg (by simp), List.dropWhile_append_of_pos letters, List.dropWhile_append_of_pos digits, stop]

theorem CpuLine.text_append (l : CpuLine) (rest : List Char) : l.text ++ rest =
    "cpu".toList ++ (showNat l.number ++ (l.before.flatMap Column.text ++
      (l.irq.text ++ (l.softirq.text ++ (l.after.flatMap Column.text ++ rest))))) := by
  simp only [CpuLine.text, CpuLine.columns, List.flatMap_append, List.flatMap_cons, List.append_assoc]

/-- The two times in interrupts are the sixth and the seventh. -/
theorem CpuLine.scanLoads_text (l : CpuLine) (ends : Ends rest) :
    scanLoads (l.text ++ rest) = some (l.irq.value, l.softirq.value) := by
  have after := ends_columns l.after ends
  obtain ⟨c, before, shape⟩ := List.exists_cons_of_length_eq_add_one l.five
  have skipped := skipUnsigned_columns l.before (l.irq.ends (l.softirq.text ++ (l.after.flatMap Column.text ++ rest)))
  rw [l.five] at skipped
  have word := scanWord_cpu l.number c (before.flatMap Column.text ++
    (l.irq.text ++ (l.softirq.text ++ (l.after.flatMap Column.text ++ rest))))
  rw [← List.append_assoc c.text, ← List.flatMap_cons, ← shape] at word
  rw [l.text_append, scanLoads, word]
  dsimp only [Option.bind_eq_bind, Option.bind_some]
  rw [skipped, Option.bind_some, scanUnsigned_column l.irq (l.softirq.ends _), Option.bind_some,
    scanUnsigned_column l.softirq after]
  rfl

/-- The number of the CPU is behind the first three characters. -/
theorem CpuLine.number_text (l : CpuLine) (rest : List Char) :
    toInt (strtoul ((l.text ++ rest).drop 3)).1 = l.number := by
  have inside := l.inside
  obtain ⟨c, before, shape⟩ := List.exists_cons_of_length_eq_add_one l.five
  have dropped : (l.text ++ rest).drop 3 = showNat l.number ++ (l.before.flatMap Column.text ++
      (l.irq.text ++ (l.softirq.text ++ (l.after.flatMap Column.text ++ rest)))) := by
    rw [l.text_append]
    rfl
  have ends := ends_columns l.before (l.irq.ends (l.softirq.text ++ (l.after.flatMap Column.text ++ rest)))
  have read := strtoul_showNat (n := l.number) (List.forall_mem_nil _) ends
  have small : min l.number (2 ^ 64 - 1) = l.number := by
    simp only [NR_CPUS] at inside
    omega
  rw [List.nil_append] at read
  rw [dropped, read, small]
  simp only [NR_CPUS] at inside
  exact toInt_of_isInt ⟨by omega, by omega⟩

/-- The line has no character but letters, digits and blanks. -/
theorem CpuLine.not_mem_text (l : CpuLine) {c : Char} (letter : c ∉ "cpu".toList) (digit : c.isDigit = false)
    (blank : isBlank c = false) : c ∉ l.text := by
  intro member
  have shown {n : ℕ} (member : c ∈ showNat n) : False := by
    rw [isDigit_showNat member] at digit
    contradiction
  simp only [CpuLine.text, Column.text, List.mem_append, List.mem_flatMap] at member
  rcases member with inside | number | ⟨column, _, blanks | count⟩
  · exact letter inside
  · exact shown number
  · rw [List.all_eq_true.mp column.blank c blanks] at blank
    contradiction
  · exact shown count

end Scanning

section Lines

theorem cString_line {text : List Char} (nul : '\x00' ∉ text) : cString (text ++ ['\n']) = text ++ ['\n'] := by
  apply cString_eq_self
  intro member
  rcases List.mem_append.mp member with inside | newline
  · exact nul inside
  · simp at newline

theorem ends_newline : Ends ['\n'] := by
  intro c head
  obtain rfl := Option.some.inj head
  decide

/-- The lines behind those of the CPUs end the loop. -/
theorem readStatText_others {others : List (List Char)} (cpucount : ℕ)
    (other : ∀ l ∈ others.head?, ¬ "cpu".toList <:+: l ++ ['\n']) :
    readStatText ns (others.map (· ++ ['\n'])) cpucount s = some (cpucount, s) := by
  cases others with
  | nil => rfl
  | cons l others =>
    have absent : ¬ "cpu".toList <:+: cString (l ++ ['\n']) := by
      intro found
      exact other l rfl (found.trans (List.takeWhile_prefix _).isInfix)
    rw [List.map_cons, readStatText]
    exact if_pos absent

/-- Reading the lines of the file as text is reading the numbers and the times. -/
theorem readStatText_eq (cpus : List CpuLine) {others : List (List Char)} (cpucount : ℕ)
    (other : ∀ l ∈ others.head?, ¬ "cpu".toList <:+: l ++ ['\n']) :
    readStatText ns (cpus.map (fun l => l.text ++ ['\n']) ++ others.map (· ++ ['\n'])) cpucount s =
      some (readCpuLoads ns (cpus.map CpuLine.statLine) cpucount s) := by
  induction cpus generalizing cpucount s with
  | nil => exact readStatText_others cpucount other
  | cons l cpus ih =>
    have nul : '\x00' ∉ l.text := l.not_mem_text (by decide) (by decide) (by decide)
    have found : "cpu".toList <:+: l.text ++ ['\n'] := ⟨[], _, by rw [List.nil_append, CpuLine.text, List.append_assoc]⟩
    have inside : 0 ≤ (l.number : ℤ) ∧ (l.number : ℤ) < NR_CPUS := ⟨by omega, by exact_mod_cast l.inside⟩
    rw [List.map_cons, List.cons_append, List.map_cons, readStatText, readCpuLoads, cString_line nul]
    dsimp only
    rw [l.number_text, l.scanLoads_text ends_newline, if_neg (not_not.mpr found), if_neg (not_not.mpr inside),
      Int.toNat_natCast]
    by_cases banned : cpuIsset l.number s.bannedCpus = true
    · have skipped : cpuIsset l.statLine.cpunr s.bannedCpus = true := banned
      rw [if_pos banned, if_pos skipped]
      exact ih cpucount
    · have read : ¬ cpuIsset l.statLine.cpunr s.bannedCpus = true := banned
      rw [if_neg banned, if_neg read]
      have number : l.statLine.cpunr = l.number := rfl
      rw [number]
      cases findCpuCore l.number s with
      | none => rfl
      | some cpu => exact ih (cpucount + 1)

/-- What is read from the text of the file is what is in its lines. -/
theorem parseProcStatText_eq (fuel : ℕ) (file : StatFile) (s : State) :
    parseProcStatText ns fuel file.text s = parseProcStatLines ns fuel (file.cpus.map CpuLine.statLine) s := by
  have lines : getLines file.text = (file.header ++ ['\n']) ::
      (file.cpus.map (fun l => l.text ++ ['\n']) ++ file.others.map (· ++ ['\n'])) := by
    rw [StatFile.text, getLines_flatMap]
    · rw [List.map_cons, List.map_append, List.map_map]
      rfl
    · intro l member
      rcases List.mem_cons.mp member with rfl | member
      · exact file.line _ List.mem_cons_self
      rcases List.mem_append.mp member with cpu | other
      · obtain ⟨l, _, rfl⟩ := List.mem_map.mp cpu
        exact l.not_mem_text (by decide) (by decide) (by decide)
      · exact file.line l (List.mem_cons_of_mem _ other)
  rw [parseProcStatText, lines]
  dsimp only
  rw [readStatText_eq file.cpus 0 file.other]
  rfl

/-- A time behind one blank. -/
def Column.plain (count : ℕ) : Column := ⟨" ".toList, count, by decide, by decide⟩

/-- The line of a CPU that has only been in interrupts, with a steal time behind. -/
def CpuLine.interrupted (number irq softirq : ℕ) (inside : number < NR_CPUS) : CpuLine where
  number := number
  before := List.replicate 5 (.plain 0)
  irq := .plain irq
  softirq := .plain softirq
  after := [.plain 9]
  inside := inside
  five := rfl

/-- The file of two CPUs. -/
def twoCpuStat : StatFile where
  header := "cpu  0 0 0 0 0 7 12 18".toList
  cpus := [.interrupted 0 3 10 (by decide), .interrupted 1 4 2 (by decide)]
  others := ["intr 5".toList, "ctxt 8".toList]
  line := by
    have plain : ["cpu  0 0 0 0 0 7 12 18".toList, "intr 5".toList, "ctxt 8".toList].all (!·.contains '\n') = true := rfl
    intro l member
    simpa using List.all_eq_true.mp plain l member
  other := by decide

/-- Objects 0 and 1 are the CPUs 0 and 1. -/
def twoCores : State where
  objs o := { number := o }
  cpus := [0, 1]
  nextObj := 2
  cycleCount := 1

theorem parseProcStatText_two :
    twoCpuStat.text =
      "cpu  0 0 0 0 0 7 12 18\ncpu0 0 0 0 0 0 3 10 9\ncpu1 0 0 0 0 0 4 2 9\nintr 5\nctxt 8\n".toList ∧
    parseProcStatText id 1 twoCpuStat.text twoCores =
      parseProcStatLines id 1 [⟨0, some (3, 10)⟩, ⟨1, some (4, 2)⟩] twoCores :=
  ⟨by decide +kernel, parseProcStatText_eq 1 twoCpuStat twoCores⟩

end Lines

end Irqbalance
