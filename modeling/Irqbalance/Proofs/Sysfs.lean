import Irqbalance.Model.Scan
import Irqbalance.Model.Sysfs
import Irqbalance.Proofs.AffinityText
import Irqbalance.Proofs.CpuList
import Irqbalance.Proofs.StatText

/-! # What is read from the files of sysfs

The files as the kernel shows them: masks in hexadecimal, lists of CPUs in ranges, numbers, and directories with other
entries in between. `build_numa_node_list` and `parse_cpu_tree` build from them the topology of the machine that they
show.
-/

namespace Irqbalance

open CText

/-- A file with a value in its first line; `none` where there is nothing to read. -/
inductive Shown {α : Type*} (Line : List Char → α → Prop) : Option (List Char) → Option α → Prop where
  | missing : Shown Line none none
  | empty : Shown Line (some []) none
  | line {l rest : List Char} {x : α} (shows : Line l x) (one : '\n' ∉ l) : Shown Line (some (l ++ '\n' :: rest)) (some x)

/-- A mask in hexadecimal chunks. -/
def MaskLine (l : List Char) (mask : CpuMask) : Prop :=
  ∃ chunks, HexText (l ++ ['\n']) chunks ∧ Fits chunks ∧ chunksValue chunks = mask.toNat

/-- A number of type `int`. -/
def IntLine (l : List Char) (n : ℤ) : Prop := IsInt n ∧ l = showInt n

/-- A range of CPUs, or one CPU. -/
def rangeText (r : ℕ × ℕ) : List Char := if r.1 = r.2 then showNat r.1 else showNat r.1 ++ '-' :: showNat r.2

/-- A list of ranges of CPUs, which may be empty. -/
def ListLine (l : List Char) (mask : CpuMask) : Prop :=
  ∃ ranges : List (ℕ × ℕ), (∀ r ∈ ranges, r.1 ≤ r.2 ∧ r.2 < NR_CPUS) ∧ l = [','].intercalate (ranges.map rangeText) ∧
    ∀ cpu, mask.getLsbD cpu = true ↔ ∃ r ∈ ranges, r.1 ≤ cpu ∧ cpu ≤ r.2

/-- The name does not go on with a number. -/
def Unnumbered (word name : List Char) : Prop :=
  ∀ rest, name = word ++ rest → ∀ c ∈ rest.head?, c.isDigit = false ∧ isSpace c = false ∧ c ≠ '+' ∧ c ≠ '-'

instance (word name : List Char) : Decidable (Unnumbered word name) :=
  decidable_of_iff (word <+: name → (name.drop word.length).head?.all
    (fun c => !c.isDigit && !isSpace c && c != '+' && c != '-') = true) <| by
    simp only [Option.all_eq_true, Bool.and_eq_true, Bool.not_eq_true', bne_iff_ne, and_assoc]
    refine ⟨fun head rest same => ?_, fun unnumbered starts => ?_⟩
    · rw [same, List.drop_left] at head
      exact head (List.prefix_append _ _)
    · obtain ⟨rest, same⟩ := starts
      rw [← same, List.drop_left]
      exact unnumbered rest same.symm

/-- A directory with an entry for each item, and others in between. -/
inductive Listing {α : Type*} (Names : Dirent → α → Prop) (Other : Dirent → Prop) : List Dirent → List α → Prop where
  | nil : Listing Names Other [] []
  | other {e es xs} (other : Other e) (rest : Listing Names Other es xs) : Listing Names Other (e :: es) xs
  | named {e es x xs} (names : Names e x) (rest : Listing Names Other es xs) : Listing Names Other (e :: es) (x :: xs)

/-- The directory of a CPU. -/
def cpuPath (d : CpuDir) : List Char := SYSFS_CPU_PATH ++ '/' :: ("cpu".toList ++ showNat d.number)

/-- The first entry with `node` in front is the node. -/
inductive NodeNamed : List Dirent → Option ℕ → Prop where
  | none {entries} (other : ∀ e ∈ entries, ¬ "node".toList <+: e.name) : NodeNamed entries none
  | some {before e after id} (other : ∀ e ∈ before, ¬ "node".toList <+: e.name) (small : id < 2 ^ 31)
      (name : e.name = "node".toList ++ showNat id) : NodeNamed (before ++ e :: after) (some id)

/-- The directory shows the CPU. -/
structure CpuShown (fs : Sysfs) (d : CpuDir) : Prop where
  small : d.number < NR_CPUS
  coreSiblings : Shown MaskLine (fs.text (cpuPath d ++ "/topology/core_siblings".toList)) d.coreSiblings
  physicalPackageId : Shown IntLine (fs.text (cpuPath d ++ "/topology/physical_package_id".toList)) d.physicalPackageId
  caches : ∀ i (inside : i < d.sharedCpuMaps.length), fs.stat (sharedCpuMap (cpuPath d) (i + 1)) = true ∧
    Shown MaskLine (fs.text (sharedCpuMap (cpuPath d) (i + 1))) (d.sharedCpuMaps.get ⟨i, inside⟩)
  noCache : fs.stat (sharedCpuMap (cpuPath d) (d.sharedCpuMaps.length + 1)) = false
  node : NodeNamed ((fs.dir (cpuPath d)).getD []) d.node

/-- The directory shows the node. -/
structure NodeShown (fs : Sysfs) (d : NodeDir) : Prop where
  small : d.id < 2 ^ 31
  cpumap : Shown MaskLine (fs.text (SYSFS_NODE_PATH ++ "/node".toList ++ showNat d.id ++ "/cpumap".toList)) d.cpumap

/-- The files show the machine, the isolated CPUs and the adaptive-ticks CPUs. -/
structure Shows (fs : Sysfs) (m : Machine) (isolated nohzFull : Option CpuMask) : Prop where
  online : Shown ListLine (fs.text (SYSFS_CPU_PATH ++ "/online".toList)) (some m.online)
  isolated : Shown ListLine (fs.text (SYSFS_CPU_PATH ++ "/isolated".toList)) isolated
  nohzFull : Shown ListLine (fs.text (SYSFS_CPU_PATH ++ "/nohz_full".toList)) nohzFull
  cpus : ∃ entries, fs.dir SYSFS_CPU_PATH = some entries ∧ Listing
    (fun e d => e.name = "cpu".toList ++ showNat d.number ∧ CpuShown fs d) (fun e => Unnumbered "cpu".toList e.name)
    entries m.cpuDirs
  nodes : ∃ entries, fs.dir SYSFS_NODE_PATH = some entries ∧ Listing
    (fun e d => e.name = "node".toList ++ showNat d.id ∧ e.isDir = true ∧ NodeShown fs d)
    (fun e => e.isDir = false ∨ Unnumbered "node".toList e.name) entries m.nodeDirs

section Lines

variable {fs : Sysfs} {l rest path t : List Char} {p : ListState} {mask : CpuMask}

theorem head?_getLines (one : '\n' ∉ l) : (getLines (l ++ '\n' :: rest)).head? = some (l ++ ['\n']) := by
  obtain ⟨first, pieces, split⟩ := List.exists_cons_of_ne_nil (List.splitOn_ne_nil '\n' rest)
  rw [getLines, List.splitOn_append_cons_self_of_not_mem one, split, List.dropLast_cons_cons, List.map_cons]
  rfl

/-- The callback gets the line with its newline. -/
theorem processOneLine_shown {α : Type*} {Line : List Char → α → Prop} {x : Option α} (shown : Shown Line (fs.text path) x) :
    (x = none ∧ processOneLine fs path = none) ∨
      ∃ l y, x = some y ∧ Line l y ∧ processOneLine fs path = some (l ++ ['\n']) := by
  rw [processOneLine]
  generalize fs.text path = file at shown
  cases shown with
  | missing => exact .inl ⟨rfl, rfl⟩
  | empty => exact .inl ⟨rfl, rfl⟩
  | line shows one => exact .inr ⟨_, _, rfl, shows, head?_getLines one⟩

theorem MaskLine.parsed (shows : MaskLine l mask) : (cpumaskParseUser (l ++ ['\n'])).1 = mask := by
  obtain ⟨chunks, text, fits, value⟩ := shows
  have same := text.cString_eq
  have parsed : bitmapParse (l ++ ['\n']) = (BitVec.ofNat NR_CPUS (chunksValue chunks), none) :=
    (bitmapParse_hexText (same.symm ▸ text)).1 fits
  rw [cpumaskParseUser, same]
  change (bitmapParse (l ++ ['\n'])).1 = mask
  rw [parsed, value, BitVec.ofNat_toNat, BitVec.setWidth_eq]

theorem readMask_shown {shown : Option CpuMask} (file : Shown MaskLine (fs.text path) shown) :
    readMask fs path mask = shown.getD mask := by
  rcases processOneLine_shown file with ⟨rfl, line⟩ | ⟨l, x, rfl, shows, line⟩
  · rw [readMask, line]
    rfl
  · rw [readMask, line]
    exact shows.parsed

theorem readInt_shown {shown : Option ℤ} (file : Shown IntLine (fs.text path) shown) :
    (processOneLine fs path).map getInt = shown := by
  rcases processOneLine_shown file with ⟨rfl, line⟩ | ⟨l, x, rfl, ⟨range, rfl⟩, line⟩
  · rw [line]
    rfl
  · rw [line, Option.map_some, getInt]
    exact congrArg some (strtoul_showInt range ends_newline).1

end Lines

section Ranges

variable {fs : Sysfs} {l path t : List Char} {p : ListState} {mask : CpuMask}

/-- A number is read as its value, and the last character that is read is one of its digits. -/
theorem readChars_showNat {n : ℕ} (small : n < 2 ^ 31) (start : p.b = 0) (clean : isSpace p.c = false) :
    ∃ c digits, isSpace c = false ∧ readChars (showNat n ++ t) p = readChars t
      { p with
        c := c, b := n, a := if p.inRange then p.a else n
        expDigit := false, totaldigits := digits } := by
  obtain ⟨d, ds, shown, _⟩ := showNat_cons (n := n)
  have digits : ∀ c ∈ d :: ds, c.isDigit = true := fun c member => isDigit_showNat (shown ▸ member)
  have value : Nat.ofDigitChars 10 (d :: ds) 0 = n := shown ▸ digitsValue_showNat
  have calm : embeddedSpace p = false := by rw [embeddedSpace, clean, Bool.and_false]
  have zero : p.b = toInt (0 : ℕ) := by rw [start]; rfl
  have value : toInt (Nat.ofDigitChars 10 (d :: ds) 0 : ℕ) = n := by
    rw [value, toInt_of_isInt ⟨by omega, by omega⟩]
  have read := readChars_digits (t := t) digits zero (fun none => absurd none (List.cons_ne_nil d ds)) (.inr calm)
  rw [List.isEmpty_cons, Bool.and_false, value] at read
  rw [shown]
  exact ⟨_, _, isSpace_of_isDigit (digits _ (by rw [List.getLastD_cons]; exact List.getLastD_mem_cons)), read⟩

/-- A range is read as its two ends. -/
theorem readChars_rangeText {r : ℕ × ℕ} (order : r.1 ≤ r.2) (small : r.2 < NR_CPUS)
    (fresh : p.b = 0 ∧ p.expDigit = true ∧ p.inRange = false) (clean : isSpace p.c = false) :
    ∃ p', readChars (rangeText r ++ t) p = readChars t p' ∧ p'.a = r.1 ∧ p'.b = r.2 ∧ isSpace p'.c = false := by
  obtain ⟨start, expected, single⟩ := fresh
  have low : r.1 < 2 ^ 31 := by simp only [NR_CPUS] at small; omega
  have high : r.2 < 2 ^ 31 := by simp only [NR_CPUS] at small; omega
  rw [rangeText]
  split
  · rename_i same
    obtain ⟨c, digits, solid, read⟩ := readChars_showNat (t := t) low start clean
    refine ⟨_, read, ?_, congrArg Nat.cast same, solid⟩
    rw [single, if_neg Bool.false_ne_true]
  · obtain ⟨c, digits, solid, read⟩ := readChars_showNat (t := '-' :: (showNat r.2 ++ t)) low start clean
    obtain ⟨c', digits', solid', read'⟩ := readChars_showNat (t := t) (p := { p with
      c := '-', b := 0, a := if p.inRange then p.a else r.1, inRange := true
      expDigit := true, totaldigits := digits }) high rfl rfl
    have minus : isSpace '-' = false := rfl
    rw [List.append_assoc, List.cons_append, read, readChars, minus, solid, single]
    rw [single] at read'
    simp only [Bool.false_eq_true, and_false, if_false, if_true, Bool.or_self]
    exact ⟨_, read', rfl, rfl, solid'⟩

/-- The elements of a list are read with the ends of their ranges. -/
theorem readRanges_rangeTexts (ranges : List (ℕ × ℕ)) (last : ℕ × ℕ)
    (valid : ∀ r ∈ ranges ++ [last], r.1 ≤ r.2 ∧ r.2 < NR_CPUS)
    (fresh : p.b = 0 ∧ p.expDigit = true ∧ p.inRange = false) (clean : isSpace p.c = false) :
    (readRanges (ranges.map rangeText ++ [rangeText last ++ ['\n']]) p).map (fun r => (r.first, r.last)) =
      (ranges ++ [last]).map fun r => ((r.1 : ℤ), (r.2 : ℤ)) := by
  induction ranges generalizing p with
  | nil =>
    obtain ⟨order, small⟩ := valid last List.mem_cons_self
    obtain ⟨p', read, first, second, solid⟩ := readChars_rangeText (t := ['\n']) order small fresh clean
    have settable : Settable { p' with c := '\n' } := by
      simp only [Settable, first, second]
      omega
    have newline : readElement (rangeText last ++ ['\n']) true p = some { p' with c := '\n' } := by
      rw [readElement, read]
      exact if_pos (decide_eq_true settable)
    rw [List.map_nil, List.nil_append, readRanges, List.isEmpty_nil, newline]
    simp only [readRanges, ite_self, List.map_cons, List.map_nil, List.nil_append, first, second]
  | cons r ranges ih =>
    obtain ⟨⟨order, small⟩, later⟩ := List.forall_mem_cons.mp valid
    obtain ⟨p', read, first, second, solid⟩ := readChars_rangeText (t := []) order small fresh clean
    have settable : Settable p' := by
      rw [Settable, first, second]
      omega
    have more : (ranges.map rangeText ++ [rangeText last ++ ['\n']]).isEmpty = false := by simp
    have some : ranges.map rangeText ++ [rangeText last ++ ['\n']] ≠ [[]] := by
      intro empty
      have length := congrArg (fun l => l.flatten.length) empty
      simp at length
    have comma : readElement (rangeText r) false p = .some p' := by
      have calm : embeddedSpace p' = false := by rw [embeddedSpace, solid, Bool.and_false]
      rw [readElement, ← List.append_nil (rangeText r), read]
      apply if_pos
      simp only [calm, decide_eq_true settable]
      rfl
    rw [List.map_cons, List.cons_append, readRanges, more, comma, List.cons_append, List.map_cons]
    simp only [if_neg some, List.map_cons, first, second]
    exact congrArg _ (ih later ⟨rfl, rfl, rfl⟩ rfl)

theorem not_mem_rangeText {c : Char} (other : c.isDigit = false) (dash : c ≠ '-') (r : ℕ × ℕ) : c ∉ rangeText r := by
  have digit {n : ℕ} : c ∉ showNat n := fun member => by
    rw [isDigit_showNat member] at other
    contradiction
  rw [rangeText]
  split
  · exact digit
  · intro member
    rcases List.mem_append.mp member with first | rest
    · exact digit first
    · exact (List.mem_cons.mp rest).elim dash digit

theorem rangeText_cons (r : ℕ × ℕ) : ∃ d rest, rangeText r = d :: rest ∧ d.isDigit = true := by
  obtain ⟨d, digits, shown, digit⟩ := showNat_cons (n := r.1)
  rw [rangeText, shown]
  split
  · exact ⟨d, digits, rfl, digit⟩
  · exact ⟨d, _, rfl, digit⟩

/-- The elements of the line of a list that is not empty. -/
def rangeElements (front : List (ℕ × ℕ)) (last : ℕ × ℕ) : List (List Char) :=
  front.map rangeText ++ [rangeText last ++ ['\n']]

variable {front : List (ℕ × ℕ)} {last : ℕ × ℕ}

theorem not_mem_rangeElements {c : Char} (other : c.isDigit = false) (dash : c ≠ '-') (newline : c ≠ '\n') :
    ∀ e ∈ rangeElements front last, c ∉ e := by
  intro e member inside
  rcases List.mem_append.mp member with before | final
  · obtain ⟨r, _, rfl⟩ := List.mem_map.mp before
    exact not_mem_rangeText other dash r inside
  · rw [List.mem_singleton.mp final] at inside
    rcases List.mem_append.mp inside with digits | newline'
    · exact not_mem_rangeText other dash last digits
    · exact newline (List.mem_singleton.mp newline')

theorem rangeElements_cons : ∃ d rest, [','].intercalate (rangeElements front last) = d :: rest ∧ d.isDigit = true := by
  cases front with
  | nil =>
    obtain ⟨d, rest, shown, digit⟩ := rangeText_cons last
    rw [rangeElements, List.map_nil, List.nil_append, List.intercalate_singleton, shown]
    exact ⟨d, _, rfl, digit⟩
  | cons r front =>
    obtain ⟨d, rest, shown, digit⟩ := rangeText_cons r
    rw [rangeElements, List.map_cons, List.cons_append, List.intercalate_cons_of_ne_nil (by simp), shown]
    exact ⟨d, _, rfl, digit⟩

theorem cString_rangeElements : cString ([','].intercalate (rangeElements front last)) =
    [','].intercalate (rangeElements front last) := by
  apply cString_eq_self
  intro nul
  have plain : ∀ e ∈ rangeElements front last, '\x00' ∉ e := not_mem_rangeElements rfl (by decide) (by decide)
  rw [rangeElements, intercalate_append_singleton, List.mem_append, List.mem_flatMap] at nul
  rcases nul with ⟨e, member, inside⟩ | final
  · rcases List.mem_append.mp inside with inside | comma
    · exact plain e (List.mem_append_left _ member) inside
    · exact absurd (List.mem_singleton.mp comma) (by decide)
  · exact plain _ (List.mem_append_right _ List.mem_cons_self) final

/-- Ranges that are read with their ends cover what they show. -/
theorem covers_ends {read : List ReadRange} {ranges : List (ℕ × ℕ)}
    (ends : read.map (fun r => (r.first, r.last)) = ranges.map fun r => ((r.1 : ℤ), (r.2 : ℤ))) :
    (∀ r ∈ read, 0 ≤ r.first) ∧ ∀ cpu : ℕ, (∃ r ∈ read, r.covers cpu) ↔ ∃ r ∈ ranges, r.1 ≤ cpu ∧ cpu ≤ r.2 := by
  have shown : ∀ r ∈ read, ∃ range ∈ ranges, (range.1 : ℤ) = r.first ∧ (range.2 : ℤ) = r.last := by
    intro r member
    have pair := List.mem_map_of_mem (f := fun r : ReadRange => (r.first, r.last)) member
    rw [ends] at pair
    obtain ⟨range, inside, same⟩ := List.mem_map.mp pair
    exact ⟨range, inside, Prod.mk.inj same⟩
  refine ⟨fun r member => ?_, fun cpu => ⟨?_, ?_⟩⟩
  · obtain ⟨range, _, first, _⟩ := shown r member
    omega
  · rintro ⟨r, member, low, high⟩
    obtain ⟨range, inside, first, last⟩ := shown r member
    exact ⟨range, inside, by omega, by omega⟩
  · rintro ⟨range, inside, low, high⟩
    have pair := List.mem_map_of_mem (f := fun r : ℕ × ℕ => ((r.1 : ℤ), (r.2 : ℤ))) inside
    rw [← ends] at pair
    obtain ⟨r, member, same⟩ := List.mem_map.mp pair
    obtain ⟨first, last⟩ := Prod.mk.inj same
    exact ⟨r, member, by omega, by omega⟩

/-- A list that is not empty sets the CPUs of its ranges. -/
theorem cpulistParse_rangeElements (valid : ∀ r ∈ front ++ [last], r.1 ≤ r.2 ∧ r.2 < NR_CPUS) :
    ∃ m, (cpulistParse ([','].intercalate (rangeElements front last))).map Prod.fst = some m ∧
      ∀ cpu, m.getLsbD cpu = true ↔ ∃ r ∈ front ++ [last], r.1 ≤ cpu ∧ cpu ≤ r.2 := by
  have read : (listRanges ([','].intercalate (rangeElements front last))).map (fun r => (r.first, r.last)) =
      (front ++ [last]).map fun r => ((r.1 : ℤ), (r.2 : ℤ)) := by
    rw [listRanges, List.splitOn_intercalate ',' (not_mem_rangeElements rfl (by decide) (by decide)) (by simp [rangeElements])]
    exact readRanges_rangeTexts front last valid ⟨rfl, rfl, rfl⟩ rfl
  obtain ⟨positive, covered⟩ := covers_ends read
  rw [cpulistParse_eq, cString_rangeElements]
  obtain ⟨m, set, bits⟩ := setRanges_some CPU_MASK_NONE (fun r member => readRanges_valid member) positive
  refine ⟨m, set, fun cpu => ?_⟩
  rw [bits]
  rw [CPU_MASK_NONE, BitVec.getLsbD_zero]
  simp only [Bool.false_eq_true, false_or]
  exact covered cpu

/-- A list in ranges is parsed as the mask that it shows. -/
theorem ListLine.parsed (shows : ListLine l mask) : getMaskFromCpulist (some (l ++ ['\n'])) = some mask := by
  obtain ⟨ranges, valid, rfl, bits⟩ := shows
  rcases List.eq_nil_or_concat ranges with rfl | ⟨front, last, rfl⟩
  · have none : mask = CPU_MASK_NONE := by
      apply BitVec.eq_of_getLsbD_eq
      intro cpu _
      rw [Bool.eq_iff_iff, bits]
      simp [CPU_MASK_NONE]
    exact congrArg some none.symm
  rw [List.concat_eq_append] at valid bits ⊢
  have line : [','].intercalate ((front ++ [last]).map rangeText) ++ ['\n'] =
      [','].intercalate (rangeElements front last) := by
    rw [List.map_append, List.map_singleton, rangeElements, intercalate_append_singleton, intercalate_append_singleton,
      List.append_assoc]
  obtain ⟨d, rest, head, digit⟩ : ∃ d rest, [','].intercalate (rangeElements front last) = d :: rest ∧ d.isDigit = true :=
    rangeElements_cons
  have start : ¬ (d :: rest = [] ∨ (d :: rest).head? = some '\n') := by
    rintro (none | newline)
    · contradiction
    · obtain rfl := Option.some.inj newline
      contradiction
  obtain ⟨m, set, bits'⟩ := cpulistParse_rangeElements valid
  have same : m = mask := by
    apply BitVec.eq_of_getLsbD_eq
    intro cpu _
    rw [Bool.eq_iff_iff, bits, bits']
  rw [line, getMaskFromCpulist, head, if_neg start, ← head, set, same]

theorem readList_shown {shown : Option CpuMask} (file : Shown ListLine (fs.text path) shown) :
    getMaskFromCpulist (processOneLine fs path) = some (shown.getD CPU_MASK_NONE) := by
  rcases processOneLine_shown file with ⟨rfl, line⟩ | ⟨l, x, rfl, shows, line⟩
  · rw [line]
    rfl
  · rw [line]
    exact shows.parsed

end Ranges

section Directories

variable {α σ : Type*} {Names : Dirent → α → Prop} {Other : Dirent → Prop} {es : List Dirent} {xs : List α}
  {word name : List Char}

theorem Unnumbered.apart (other : Unnumbered word name) : word.isPrefixOf name = false ∨
    ∃ rest, name = word ++ rest ∧ ∀ c ∈ rest.head?, c.isDigit = false ∧ isSpace c = false ∧ c ≠ '+' ∧ c ≠ '-' := by
  cases starts : word.isPrefixOf name with
  | false => exact .inl rfl
  | true =>
    obtain ⟨rest, same⟩ := List.isPrefixOf_iff_prefix.mp starts
    exact .inr ⟨rest, same.symm, other rest same.symm⟩

/-- A walk over a directory is the walk over the items that it lists. -/
theorem forEach_listing {f : Dirent → σ → σ} {g : α → σ → σ} (listing : Listing Names Other es xs)
    (skip : ∀ e s, Other e → f e s = s) (visit : ∀ e x s, Names e x → f e s = g x s) (s : σ) :
    forEach es f s = forEach xs g s := by
  induction listing generalizing s with
  | nil => rfl
  | other other _ ih => rw [forEach_cons, skip _ s other, ih]
  | named names _ ih => rw [forEach_cons, forEach_cons, visit _ _ s names, ih]

theorem tryForEach_listing {f : Dirent → σ → Option σ} {g : α → σ → σ} (listing : Listing Names Other es xs)
    (skip : ∀ e s, Other e → f e s = some s) (visit : ∀ e x s, Names e x → f e s = some (g x s)) (s : σ) :
    tryForEach es f s = some (forEach xs g s) := by
  induction listing generalizing s with
  | nil => rfl
  | other other _ ih => rw [tryForEach_cons, skip _ s other, Option.bind_some, ih]
  | named names _ ih => rw [tryForEach_cons, forEach_cons, visit _ _ s names, Option.bind_some, ih]

end Directories

section Nodes

variable {env : Env} {fs : Sysfs} {m : Machine} {e : Dirent} {s : State} {n : ℕ} {isolated nohzFull : Option CpuMask}

theorem isNodeDir_unnumbered (other : e.isDir = false ∨ Unnumbered "node".toList e.name) : isNodeDir e = false := by
  rw [isNodeDir]
  rcases other with file | other
  · rw [file]
    rfl
  rcases other.apart with apart | ⟨rest, named, behind⟩
  · rw [apart, Bool.and_false, Bool.false_and]
  have dropped : e.name.drop 4 = rest := named ▸ rfl
  rw [dropped]
  cases rest with
  | nil => rw [List.head?_nil, Option.any_none, Bool.and_false]
  | cons c rest => rw [List.head?_cons, Option.any_some, (behind c rfl).1, Bool.and_false]

theorem isNodeDir_number (dir : e.isDir = true) (named : e.name = "node".toList ++ showNat n) :
    isNodeDir e = true := by
  obtain ⟨c, digits, shown, digit⟩ := showNat_cons (n := n)
  have starts : "node".toList.isPrefixOf ("node".toList ++ showNat n) = true := rfl
  have dropped : ("node".toList ++ showNat n).drop 4 = showNat n := rfl
  rw [isNodeDir, dir, named, starts, dropped, shown]
  exact digit

theorem getInt_showNat (small : n < 2 ^ 31) : getInt (showNat n) = n := by
  have range : IsInt (n : ℤ) := ⟨by omega, by omega⟩
  have read := (strtoul_showInt range ends_nil).1
  rw [List.append_nil] at read
  exact read

theorem addOneNodeFrom_shown {d : NodeDir} (shown : NodeShown fs d) :
    addOneNodeFrom fs d.id s = addOneNode d.id (d.cpumap.getD CPU_MASK_NONE) s := by
  have named : (d.id : ℤ) ≠ NUMA_NO_NODE := by
    rw [NUMA_NO_NODE]
    omega
  rw [addOneNodeFrom, if_neg named]
  exact congrArg (addOneNode d.id · s) (readMask_shown shown.cpumap)

/-- The nodes are those of the machine that the files show. -/
theorem buildNumaNodeListFrom_shown (shows : Shows fs m isolated nohzFull) :
    buildNumaNodeListFrom env fs s = buildNumaNodeList env m s := by
  obtain ⟨entries, found, listing⟩ := shows.nodes
  have unspecified : addOneNodeFrom fs NUMA_NO_NODE s = addOneNode NUMA_NO_NODE (BitVec.allOnes NR_CPUS) s :=
    congrArg (addOneNode NUMA_NO_NODE · s) (if_pos rfl)
  rw [buildNumaNodeListFrom, buildNumaNodeList, unspecified, found]
  cases env.numaAvail with
  | false => rfl
  | true =>
    refine forEach_listing listing (fun e s other => ?_) (fun e d s names => ?_) _
    · rw [isNodeDir_unnumbered other]
      rfl
    · obtain ⟨named, dir, shown⟩ := names
      have number : e.name.drop 4 = showNat d.id := named ▸ rfl
      rw [isNodeDir_number dir named, number, getInt_showNat shown.small]
      exact addOneNodeFrom_shown shown

end Nodes

section Cpus

variable {env : Env} {fs : Sysfs} {m : Machine} {d : CpuDir} {s : State} {n : ℕ} {name path rest : List Char}
  {isolated nohzFull : Option CpuMask}

theorem scanNumber_eq_none (other : ∀ c ∈ rest.head?, c.isDigit = false ∧ isSpace c = false ∧ c ≠ '+' ∧ c ≠ '-') :
    scanNumber rest = none := by
  cases rest with
  | nil => rfl
  | cons c rest =>
    obtain ⟨digit, space, plus, minus⟩ := other c rfl
    have blank : (c :: rest).dropWhile isSpace = c :: rest := List.dropWhile_cons_of_neg (by rw [space]; decide)
    have sign : takeSign (c :: rest) = (false, c :: rest) := by
      rw [takeSign]
      · exact fun _ same => minus (List.cons.inj same).1
      · exact fun _ same => plus (List.cons.inj same).1
    have none : (c :: rest).takeWhile Char.isDigit = [] := List.takeWhile_cons_of_neg (by rw [digit]; decide)
    rw [scanNumber, blank, sign]
    simp only [none, List.isEmpty_nil, if_true]

theorem isCpuDir_unnumbered (other : Unnumbered "cpu".toList name) : isCpuDir name = false := by
  rw [isCpuDir]
  rcases other.apart with apart | ⟨rest, rfl, behind⟩
  · rw [apart]
    rfl
  · have dropped : ("cpu".toList ++ rest).drop 3 = rest := rfl
    rw [dropped, scanNumber_eq_none behind, Option.any_none, Bool.and_false]
    rfl

theorem isCpuDir_number : isCpuDir ("cpu".toList ++ showNat n) = true := by
  have starts : "cpu".toList.isPrefixOf ("cpu".toList ++ showNat n) = true := rfl
  have dropped : ("cpu".toList ++ showNat n).drop 3 = showNat n := rfl
  have unspaced : ' ' ∉ "cpu".toList ++ showNat n := by
    rw [List.mem_append, not_or]
    exact ⟨by decide, fun member => absurd (isDigit_showNat member) (by decide)⟩
  rw [isCpuDir, starts, dropped, scanNumber_showNat, decide_eq_true unspaced]
  rfl

theorem toInt_strtol_showNat (small : n < 2 ^ 31) : toInt (strtol (showNat n)) = n :=
  toInt_strtol_showInt (z := n) ⟨by omega, by omega⟩

/-- The number in the path of a CPU. -/
theorem number_cpuPath (small : d.number < NR_CPUS) :
    toInt (strtol (((cpuPath d).rtakeWhile (· != '/')).drop 3)) = d.number := by
  have letters : "cpu".toList.all (· != '/') = true := rfl
  have plain : ∀ c ∈ ("cpu".toList ++ showNat d.number).reverse, (c != '/') = true := by
    intro c member
    rcases List.mem_append.mp (List.mem_reverse.mp member) with word | digit
    · exact List.all_eq_true.mp letters c word
    · exact bne_iff_ne.mpr fun slash => absurd (slash ▸ isDigit_showNat digit) (by decide)
  have last : (cpuPath d).rtakeWhile (· != '/') = "cpu".toList ++ showNat d.number := by
    rw [cpuPath, List.rtakeWhile, List.reverse_append, List.reverse_cons, List.append_assoc,
      List.takeWhile_append_of_pos plain, List.singleton_append, List.takeWhile_cons_of_neg (by decide), List.append_nil,
      List.reverse_reverse]
  have dropped : ("cpu".toList ++ showNat d.number).drop 3 = showNat d.number := rfl
  rw [last, dropped, toInt_strtol_showNat (by simp only [NR_CPUS] at small; omega)]

/-- The deepest cache that is there, up to the bound on the loop. -/
theorem maxCacheIndex_shown (shown : CpuShown fs d) (left : ℕ) {i : ℕ} (inside : i ≤ d.sharedCpuMaps.length) :
    maxCacheIndex fs (cpuPath d) left (i + 1) = min (i + left) d.sharedCpuMaps.length := by
  induction left generalizing i with
  | zero =>
    rw [maxCacheIndex]
    omega
  | succ left ih =>
    rw [maxCacheIndex]
    rcases inside.lt_or_eq with more | rfl
    · rw [(shown.caches i more).1, if_pos rfl, ih more]
      omega
    · rw [shown.noCache, if_neg Bool.false_ne_true]
      omega

theorem cacheMask_shown (shown : CpuShown fs d) (deepestCache : ℕ) :
    (if maxCacheIndex fs (cpuPath d) deepestCache 1 > 0 then
      readMask fs (sharedCpuMap (cpuPath d) (maxCacheIndex fs (cpuPath d) deepestCache 1)) (cpumaskOfCpu d.number)
      else cpumaskOfCpu d.number) = d.cacheMask deepestCache := by
  have index : maxCacheIndex fs (cpuPath d) deepestCache 1 = min deepestCache d.sharedCpuMaps.length :=
    (maxCacheIndex_shown shown deepestCache (Nat.zero_le _)).trans (by rw [Nat.zero_add])
  rw [index, CpuDir.cacheMask, List.getLast?_eq_getElem?, List.length_take]
  cases count : min deepestCache d.sharedCpuMaps.length with
  | zero =>
    have empty : d.sharedCpuMaps.take deepestCache = [] := List.length_eq_zero_iff.mp (List.length_take.trans count)
    rw [if_neg (Nat.lt_irrefl 0), empty]
    rfl
  | succ k =>
    have inside : k < d.sharedCpuMaps.length := by omega
    have last : (d.sharedCpuMaps.take deepestCache)[k + 1 - 1]? = some (d.sharedCpuMaps.get ⟨k, inside⟩) := by
      rw [Nat.add_sub_cancel, List.getElem?_take_of_lt (by omega)]
      exact List.getElem?_eq_getElem inside
    rw [if_pos (Nat.succ_pos k), readMask_shown (shown.caches k inside).2, last]
    cases d.sharedCpuMaps.get ⟨k, inside⟩ <;> rfl

theorem nodeNumber_other (other : ¬ "node".toList <+: name) : nodeNumber name = none := by
  have apart : "node".toList.isPrefixOf name = false :=
    Bool.eq_false_iff.mpr fun starts => other (List.isPrefixOf_iff_prefix.mp starts)
  rw [nodeNumber, apart]
  rfl

theorem nodeNumber_number (small : n < 2 ^ 31) : nodeNumber ("node".toList ++ showNat n) = some (n : ℤ) := by
  have starts : "node".toList.isPrefixOf ("node".toList ++ showNat n) = true := rfl
  have dropped : ("node".toList ++ showNat n).drop 4 = showNat n := rfl
  rw [nodeNumber, starts, dropped]
  simp only [Bool.not_true, Bool.false_eq_true, if_false, scanNumber_showNat, toInt_strtol_showNat small, Option.map_some,
    Option.getD_some, true_and]
  exact if_pos (Int.natCast_nonneg n)

theorem readNodeid_shown (node : NodeNamed ((fs.dir path).getD []) d.node) : readNodeid env fs path = d.nodeid env := by
  rw [readNodeid, CpuDir.nodeid]
  cases env.numaAvail with
  | false => rfl
  | true =>
    generalize (fs.dir path).getD [] = entries, d.node = named at node ⊢
    cases node with
    | none other =>
      rw [List.findSome?_eq_none_iff.mpr fun e member => nodeNumber_other (other e member)]
      rfl
    | some other small name =>
      rw [List.findSome?_append, List.findSome?_eq_none_iff.mpr fun e member => nodeNumber_other (other e member),
        List.findSome?_cons, name, nodeNumber_number small]
      rfl

theorem readPackageMask_shown (shown : CpuShown fs d) :
    readPackageMask env fs (cpuPath d) d.number (d.nodeid env) s = d.packageMask env s := by
  rw [readPackageMask, CpuDir.packageMask, readMask_shown shown.coreSiblings]
  cases env.numaAvail with
  | false => rfl
  | true =>
    simp only [if_true]
    cases getNumaNode env (d.nodeid env) s <;> rfl

/-- A CPU is added as the machine has it. -/
theorem doOneCpuFrom_shown (shows : Shows fs m isolated nohzFull) (shown : CpuShown fs d) :
    doOneCpuFrom env fs (cpuPath d) s = some (doOneCpu env m d s) := by
  have inside : 0 ≤ (d.number : ℤ) ∧ (d.number : ℤ) < NR_CPUS := ⟨Int.natCast_nonneg _, Int.ofNat_lt.mpr shown.small⟩
  rw [doOneCpuFrom, readList_shown shows.online, number_cpuPath shown.small]
  simp only [Option.bind_eq_bind, Option.bind_some, Option.getD_some, if_neg (not_not.mpr inside), Int.toNat_natCast,
    readInt_shown shown.physicalPackageId, cacheMask_shown shown, readNodeid_shown shown.node,
    readPackageMask_shown shown]
  rw [doOneCpu]
  dsimp only
  cases cpuIsset d.number m.online with
  | false => rfl
  | true => cases cpusIntersects (cpumaskOfCpu d.number) s.bannedCpus <;> rfl

end Cpus

section Trees

variable {env : Env} {fs : Sysfs} {m : Machine} {s : State} {src : BanSources} {banned : CpuMask}
  {isolated nohzFull : Option CpuMask}

/-- What is banned without a mask of the user, from the files. -/
theorem setupBannedCpusFrom_unset (shows : Shows fs m isolated nohzFull)
    (ui : src.bannedCpumaskFromUi = none) (cpus : src.bannedCpusEnv = none) (cpulist : src.bannedCpulistEnv = none) :
    setupBannedCpusFrom fs src =
      some ((nohzFull.getD CPU_MASK_NONE ||| isolated.getD CPU_MASK_NONE) ||| src.thermalBannedCpus) := by
  simp only [setupBannedCpusFrom, setupBannedCpus, envBannedCpus, autoBannedCpus, ui, cpus, cpulist, Option.filter_none,
    readList_shown shows.isolated, readList_shown shows.nohzFull, Option.map_some]

/-- `parse_cpu_tree` builds the tree of the machine that the files show. -/
theorem parseCpuTreeFrom_shown (shows : Shows fs m isolated nohzFull)
    (bans : setupBannedCpusFrom fs src = some banned) :
    parseCpuTreeFrom env fs src s = some (parseCpuTree env m banned s) := by
  obtain ⟨entries, found, listing⟩ := shows.cpus
  rw [parseCpuTreeFrom, bans, found]
  have walked := tryForEach_listing (f := fun entry s =>
      if isCpuDir entry.name then doOneCpuFrom env fs (SYSFS_CPU_PATH ++ '/' :: entry.name) s else some s)
    (g := doOneCpu env m) listing (fun e s other => by rw [isCpuDir_unnumbered other]; rfl)
    (fun e d s names => by
      rw [names.1, isCpuDir_number]
      exact doOneCpuFrom_shown shows names.2)
  simp only [Option.bind_eq_bind, Option.bind_some, walked]
  rfl

/-- The tree of `build_object_tree`, from the files. -/
theorem buildObjectTree_shown (shows : Shows fs m isolated nohzFull)
    (bans : setupBannedCpusFrom fs src = some banned) (irqs : IrqSources) :
    (parseCpuTreeFrom env fs src (buildNumaNodeListFrom env fs s)).map (rebuildIrqDb env irqs) =
      some (buildObjectTree env { machine := m, src := irqs } banned s) := by
  rw [buildNumaNodeListFrom_shown shows, parseCpuTreeFrom_shown shows bans, Option.map_some, buildObjectTree]

/-- CPU 0 of node 0. -/
def oneCpu : Machine where
  online := BitVec.ofNat NR_CPUS 1
  cpuDirs := [{ number := 0, coreSiblings := some (BitVec.ofNat NR_CPUS 1), node := some 0 }]
  nodeDirs := [⟨0, some (BitVec.ofNat NR_CPUS 1)⟩]

/-- Its files, with other entries in each directory. -/
def oneCpuFiles : Sysfs where
  text path :=
    if path = "/sys/devices/system/cpu/online".toList then some "0\n".toList
    else if path = "/sys/devices/system/cpu/cpu0/topology/core_siblings".toList then some "1\n".toList
    else if path = "/sys/devices/system/node/node0/cpumap".toList then some "1\n".toList
    else none
  dir path :=
    if path = SYSFS_CPU_PATH then some [⟨"cpufreq".toList, true⟩, ⟨"cpu0".toList, true⟩, ⟨"online".toList, false⟩]
    else if path = SYSFS_NODE_PATH then some [⟨"node0".toList, true⟩, ⟨"online".toList, false⟩]
    else if path = "/sys/devices/system/cpu/cpu0".toList then some [⟨"topology".toList, true⟩, ⟨"node0".toList, false⟩]
    else none

/-- They show it, with nothing isolated. -/
theorem oneCpuFiles_shows : Shows oneCpuFiles oneCpu none none := by
  have zero : ListLine "0".toList (BitVec.ofNat NR_CPUS 1) := by
    refine ⟨[(0, 0)], by decide, rfl, fun cpu => ?_⟩
    have inside : cpu = 0 → cpu < NR_CPUS := fun zero => zero ▸ by decide
    simpa [BitVec.getLsbD_ofNat, Nat.testBit_one_eq_true_iff_self_eq_zero] using inside
  have one : MaskLine "1".toList (BitVec.ofNat NR_CPUS 1) :=
    ⟨["1".toList], ⟨by decide, List.forall_mem_singleton.mpr ⟨by decide, List.all_eq_true.mp rfl⟩, [], ['\n'], nofun,
      List.all_eq_true.mp rfl, rfl⟩, ⟨by decide, by decide +kernel⟩, by decide +kernel⟩
  have mask : Shown MaskLine (some ("1".toList ++ '\n' :: [])) (some (BitVec.ofNat NR_CPUS 1)) := .line one (by decide)
  have linked : NodeNamed ([⟨"topology".toList, true⟩] ++ ⟨"node0".toList, false⟩ :: []) (some 0) :=
    .some (by decide) (by decide) rfl
  have online : Shown ListLine (some ("0".toList ++ '\n' :: [])) (some (BitVec.ofNat NR_CPUS 1)) :=
    .line zero (by decide)
  have cpu : CpuShown oneCpuFiles ⟨0, some (BitVec.ofNat NR_CPUS 1), none, [], some 0⟩ :=
    { small := by decide
      coreSiblings := mask
      physicalPackageId := .missing
      caches := nofun
      noCache := rfl
      node := linked }
  have node : NodeShown oneCpuFiles ⟨0, some (BitVec.ofNat NR_CPUS 1)⟩ := ⟨by decide, mask⟩
  exact
    { online := online
      isolated := .missing
      nohzFull := .missing
      cpus := ⟨_, rfl, .other (by decide) (.named ⟨rfl, cpu⟩ (.other (by decide) .nil))⟩
      nodes := ⟨_, rfl, .named ⟨rfl, rfl, node⟩ (.other (.inl rfl) .nil)⟩ }

end Trees

end Irqbalance
