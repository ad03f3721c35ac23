import Irqbalance.Proofs.CpuList

/-! # The list parser on its text

Which elements of a list `__bitmap_parselist` reads, and which numbers it takes from them, in terms
of their text: an element is cut at its white space, its digits and its `'-'`, and its numbers are
those of an `int`. `readRanges_eq` says that the parser's loop reads exactly these.
-/

namespace Irqbalance

open CText

/-- The first and the last number of a text that is a number, a range, an open range or nothing. A
missing number counts as 0. -/
def textEnds (t : List Char) : Option (ℕ × ℕ) :=
  let digits := t.takeWhile Char.isDigit
  match t.dropWhile Char.isDigit with
  | [] => some (digitsValue digits, digitsValue digits)
  | '-' :: last =>
    if digits ≠ [] ∧ last.all Char.isDigit = true then some (digitsValue digits, digitsValue last) else none
  | _ :: _ => none

/-- The first and the last number of an element. -/
def elementEnds (e : List Char) : Option (ℕ × ℕ) := textEnds (trim e)

/-- White space that the parser rejects: behind a digit of the list, and in front of another
character or a comma. `digits` says that there is a digit in front of the element. -/
def misplacedSpace (digits last : Bool) (e : List Char) : Bool :=
  (digits && e.head?.any isSpace && !(trim e).isEmpty) ||
    ((digits || e.any Char.isDigit) && e.getLast?.any isSpace && !last)

/-- The element is a number, a range, an open range or nothing, with its numbers as an `int` in order
and below `NR_CPUS`, and white space where it may be. -/
def acceptsElement (digits last : Bool) (e : List Char) : Bool :=
  !misplacedSpace digits last e &&
    (elementEnds e).any fun ends => decide (toInt ends.1 ≤ toInt ends.2 ∧ toInt ends.2 < NR_CPUS)

/-- The elements from the first on that are accepted. Nothing is read behind a comma that ends the
list. -/
def acceptedFrom : List (List Char) → Bool → List (List Char)
  | [], _ => []
  | e :: es, digits =>
    if acceptsElement digits es.isEmpty e then
      e :: if es = [[]] then [] else acceptedFrom es (digits || e.any Char.isDigit)
    else []

/-- What an accepted element sets. -/
def elementSets (e : List Char) : ReadRange :=
  let ends := (elementEnds e).getD (0, 0)
  ⟨e, toInt ends.1, toInt ends.2⟩

section Trim

variable {e : List Char}

theorem trim_parts : e = e.takeWhile isSpace ++ (trim e ++ (e.dropWhile isSpace).rtakeWhile isSpace) := by
  rw [trim, List.rdropWhile_append_rtakeWhile, List.takeWhile_append_dropWhile]

end Trim

section Reading

variable {p q : ListState} {e t t' ds : List Char} {c : Char}

/-- The last character that is read, and the digits so far. -/
theorem readChars_trace (read : readChars e p = some q) :
    q.c = e.getLastD p.c ∧ q.totaldigits = p.totaldigits + e.countP Char.isDigit := by
  induction e generalizing p with
  | nil =>
    obtain rfl := Option.some.inj read
    exact ⟨rfl, rfl⟩
  | cons c e ih =>
    rw [List.getLastD_cons, List.countP_cons]
    rw [readChars] at read
    split at read
    · rename_i space
      have other : c.isDigit = false := by
        rw [Bool.eq_false_iff]
        intro digit
        rw [isSpace_of_isDigit digit] at space
        contradiction
      rw [other, if_neg Bool.false_ne_true]
      exact ih read
    split at read
    · contradiction
    split at read
    · rename_i minus
      split at read
      · contradiction
      · rw [minus, if_neg (by decide)] at *
        exact ih read
    split at read
    · contradiction
    · rename_i digit
      have digit : c.isDigit = true := by simpa using digit
      obtain ⟨final, digits⟩ := ih read
      rw [digit, if_pos rfl]
      exact ⟨final, by rw [digits]; dsimp only; omega⟩

/-- White space behind a digit and in front of another character. -/
theorem readChars_embedded (embedded : embeddedSpace p = true) (solid : ∃ c ∈ t, isSpace c = false) :
    readChars t p = none := by
  induction t generalizing p with
  | nil =>
    obtain ⟨_, member, _⟩ := solid
    contradiction
  | cons c t ih =>
    have digits : p.totaldigits ≠ 0 ∧ isSpace p.c = true := by simpa [embeddedSpace] using embedded
    rw [readChars]
    split
    · rename_i space
      obtain ⟨d, member, solid⟩ := solid
      rcases List.mem_cons.mp member with rfl | later
      · rw [space] at solid
        contradiction
      · exact ih (by simp [embeddedSpace, digits.1, space]) ⟨d, later, solid⟩
    · rfl

/-- A character behind which nothing is read. -/
theorem readChars_stuck (other : c.isDigit = false) (minus : c = '-' → p.expDigit = true ∨ p.inRange = true)
    (space : isSpace c = true → p.totaldigits ≠ 0 ∧ ∃ d ∈ t, isSpace d = false) :
    readChars (c :: t) p = none := by
  rw [readChars]
  split
  · rename_i blank
    obtain ⟨digits, solid⟩ := space blank
    exact readChars_embedded (by simp [embeddedSpace, digits, blank]) solid
  split
  · rfl
  split
  · rename_i same
    rw [if_pos (by simpa using minus same)]
  · rw [other]
    rfl

/-- What is not a digit, behind the digits of a text that does not end in white space. -/
theorem solid_behind_digits (solid : ∀ d ∈ t.getLast?, isSpace d = false) (behind : t.dropWhile Char.isDigit = c :: e) :
    c.isDigit = false ∧ (isSpace c = true → ∃ d ∈ e, isSpace d = false) := by
  have other : c.isDigit = false := by
    have first := List.head_dropWhile_not Char.isDigit (l := t) (by rw [behind]; exact List.cons_ne_nil c e)
    simpa only [behind, List.head_cons] using first
  refine ⟨other, fun space => ?_⟩
  have suffix : c :: e <:+ t := behind ▸ List.dropWhile_suffix Char.isDigit
  obtain ⟨front, rfl⟩ := suffix
  rcases List.eq_nil_or_concat' e with rfl | ⟨middle, d, rfl⟩
  · rw [solid c (by simp)] at space
    contradiction
  · refine ⟨d, by simp, solid d ?_⟩
    rw [← List.cons_append, ← List.append_assoc, List.getLast?_concat]
    rfl

/-- The digits in front of a text are read as their value. -/
theorem readChars_number (start : p.b = 0) (single : p.inRange = false → p.a = p.b)
    (calm : embeddedSpace p = false) :
    ∃ q, readChars t p = readChars (t.dropWhile Char.isDigit) q ∧
      q.b = toInt (digitsValue (t.takeWhile Char.isDigit)) ∧ q.a = (if p.inRange then p.a else q.b) ∧
      q.inRange = p.inRange ∧ q.expDigit = (p.expDigit && (t.takeWhile Char.isDigit).isEmpty) ∧
      q.totaldigits = p.totaldigits + (t.takeWhile Char.isDigit).length ∧ embeddedSpace q = false := by
  have digits : ∀ d ∈ t.takeWhile Char.isDigit, d.isDigit = true := fun d => List.mem_takeWhile_imp
  have zero : p.b = toInt (0 : ℕ) := by rw [start]; rfl
  have read := readChars_digits (t := t.dropWhile Char.isDigit) digits zero (fun _ => single) (.inr calm)
  rw [List.takeWhile_append_dropWhile] at read
  refine ⟨_, read, by dsimp only [digitsValue], by dsimp only, rfl, rfl, rfl, ?_⟩
  generalize t.takeWhile Char.isDigit = ds at digits
  cases ds with
  | nil => simpa [embeddedSpace] using calm
  | cons d ds =>
    have last := isSpace_of_isDigit (digits _ List.getLastD_mem_cons)
    simp only [embeddedSpace, List.getLastD_cons, last, Bool.and_false]

/-- The second number of a range. -/
theorem readChars_last (second : p.inRange = true) (start : p.b = 0) (begun : p.totaldigits ≠ 0)
    (calm : embeddedSpace p = false) (solid : ∀ d ∈ t.getLast?, isSpace d = false) :
    (readChars t p).map (fun q => (q.a, q.b)) =
      if t.all Char.isDigit = true then some (p.a, toInt (digitsValue t)) else none := by
  obtain ⟨q, read, value, first, range, -, count, -⟩ := readChars_number (t := t) start
    (fun single => absurd single (by simp [second])) calm
  rw [second, if_pos rfl] at first
  rw [read]
  cases behind : t.dropWhile Char.isDigit with
  | nil =>
    have all : ∀ d ∈ t, d.isDigit = true := List.dropWhile_eq_nil_iff.mp behind
    rw [List.takeWhile_eq_self_iff.mpr all] at value
    rw [if_pos (List.all_eq_true.mpr all), readChars, Option.map_some, first, value]
  | cons c e =>
    obtain ⟨other, later⟩ := solid_behind_digits solid behind
    have some : ¬ t.all Char.isDigit = true := by
      intro all
      rw [List.dropWhile_eq_nil_iff.mpr (List.all_eq_true.mp all)] at behind
      contradiction
    have stuck : readChars (c :: e) q = none :=
      readChars_stuck other (fun _ => .inr (range.trans second)) fun space => ⟨by omega, later space⟩
    rw [if_neg some, stuck, Option.map_none]

/-- A `'-'` behind a first number starts the second one. -/
theorem readChars_dash (number : p.expDigit = false) (single : p.inRange = false) (calm : embeddedSpace p = false) :
    readChars ('-' :: e) p = readChars e { p with c := '-', b := 0, inRange := true, expDigit := true } := by
  have dash : isSpace '-' = false := by decide
  have quiet : ¬ (p.totaldigits ≠ 0 ∧ isSpace p.c = true) := by simpa [embeddedSpace] using calm
  rw [readChars, dash, if_neg Bool.false_ne_true, if_neg quiet, if_pos rfl, number, single]
  rfl

/-- What is read behind the first number, if that is all there was so far. -/
theorem readChars_behind (low : p.a = toInt (digitsValue ds)) (high : p.b = p.a) (single : p.inRange = false)
    (awaits : p.expDigit = ds.isEmpty) (begun : ds ≠ [] → p.totaldigits ≠ 0) (calm : embeddedSpace p = false)
    (behind : t.dropWhile Char.isDigit = t') (digits : t.takeWhile Char.isDigit = ds)
    (front : ∀ d ∈ t.head?, isSpace d = false) (solid : ∀ d ∈ t.getLast?, isSpace d = false) :
    (readChars t' p).map (fun q => (q.a, q.b)) = (textEnds t).map fun ends => (toInt ends.1, toInt ends.2) := by
  have whole : ds ++ t' = t := by rw [← digits, ← behind, List.takeWhile_append_dropWhile]
  rw [textEnds, behind, digits]
  cases t' with
  | nil => rw [readChars, Option.map_some, Option.map_some, high, low]
  | cons c e =>
    obtain ⟨other, later⟩ := solid_behind_digits solid behind
    by_cases minus : c = '-'
    · subst minus
      by_cases number : ds = []
      · have stuck : readChars ('-' :: e) p = none :=
          readChars_stuck other (fun _ => .inl (by rw [awaits, number]; rfl)) fun space => absurd space (by decide)
        simp only [stuck, number, ne_eq, not_true_eq_false, false_and, if_false, Option.map_none]
      · have last : ∀ d ∈ e.getLast?, isSpace d = false := by
          intro d final
          refine solid d ?_
          rw [← whole, List.getLast?_append, List.getLast?_cons, Option.mem_def.mp final]
          rfl
        have next : p.expDigit = false := by rwa [awaits, List.isEmpty_eq_false_iff]
        have final := readChars_last (p := { p with c := '-', b := 0, inRange := true, expDigit := true })
          rfl rfl (begun number) (by simp [embeddedSpace, show isSpace '-' = false by decide]) last
        rw [readChars_dash next single calm, final]
        simp only [number, ne_eq, not_false_eq_true, true_and, low]
        split <;> rfl
    · have stuck : readChars (c :: e) p = none := by
        refine readChars_stuck other (fun same => absurd same minus) fun space => ⟨begun fun none => ?_, later space⟩
        rw [front c (by rw [← whole, none]; rfl)] at space
        contradiction
      rw [stuck]
      split
      · contradiction
      · rename_i same
        exact absurd (List.cons.inj same).1 minus
      · rfl

/-- A text without white space at its ends is read as its numbers. -/
theorem readChars_text (fresh : p.a = 0 ∧ p.b = 0 ∧ p.expDigit = true ∧ p.inRange = false)
    (calm : embeddedSpace p = false) (front : ∀ d ∈ t.head?, isSpace d = false)
    (solid : ∀ d ∈ t.getLast?, isSpace d = false) :
    (readChars t p).map (fun q => (q.a, q.b)) = (textEnds t).map fun ends => (toInt ends.1, toInt ends.2) := by
  obtain ⟨low, high, expected, single⟩ := fresh
  obtain ⟨q, read, value, first, range, awaits, count, quiet⟩ := readChars_number (t := t) high
    (fun _ => low.trans high.symm) calm
  rw [single, if_neg Bool.false_ne_true] at first
  rw [expected, Bool.true_and] at awaits
  have begun (number : t.takeWhile Char.isDigit ≠ []) : q.totaldigits ≠ 0 := by
    have length := List.length_pos_iff.mpr number
    omega
  rw [read]
  exact readChars_behind (first.trans value) first.symm (range.trans single) awaits begun quiet rfl rfl front solid

end Reading

section Elements

variable {p q : ListState} {e : List Char} {es : List (List Char)}

theorem head_trim : ∀ d ∈ (trim e).head?, isSpace d = false := by
  intro d first
  have trimmed : (e.dropWhile isSpace).head? = some d := by
    obtain ⟨rest, whole⟩ := List.rdropWhile_prefix isSpace (l := e.dropWhile isSpace)
    rw [← whole, List.head?_append, show (e.dropWhile isSpace).rdropWhile isSpace = trim e from rfl,
      Option.mem_def.mp first]
    rfl
  have solid := List.head?_dropWhile_not isSpace e
  rw [trimmed] at solid
  simpa using solid

theorem getLast_trim : ∀ d ∈ (trim e).getLast?, isSpace d = false := by
  intro d final
  obtain ⟨some, rfl⟩ := List.mem_getLast?_eq_getLast final
  exact Bool.eq_false_iff.mpr (List.rdropWhile_last_not isSpace _ some)

theorem isSpace_front {c : Char} (calm : isSpace c = false) :
    isSpace ((e.takeWhile isSpace).getLastD c) = e.head?.any isSpace := by
  cases e with
  | nil => exact calm
  | cons d e =>
    rw [List.takeWhile_cons, List.head?_cons, Option.any_some]
    cases space : isSpace d with
    | false => exact calm
    | true =>
      rw [if_pos rfl, List.getLastD_cons]
      rcases List.mem_cons.mp (List.getLastD_mem_cons (l := e.takeWhile isSpace) (a := d)) with same | behind
      · rw [same, space]
      · exact List.mem_takeWhile_imp behind

/-- The parser reads the numbers of an element, unless there is white space in front of it and a
digit before. -/
theorem readChars_element (fresh : p.a = 0 ∧ p.b = 0 ∧ p.expDigit = true ∧ p.inRange = false)
    (calm : isSpace p.c = false) :
    (readChars e p).map (fun q => (q.a, q.b)) =
      if (p.totaldigits != 0 && e.head?.any isSpace && !(trim e).isEmpty) = true then none
      else (elementEnds e).map fun ends => (toInt ends.1, toInt ends.2) := by
  have front : ∀ c ∈ e.takeWhile isSpace, isSpace c = true := fun c => List.mem_takeWhile_imp
  have back : ∀ c ∈ (e.dropWhile isSpace).rtakeWhile isSpace, isSpace c = true := fun c => List.mem_rtakeWhile_imp
  have behind (q : ListState) : (readChars ((e.dropWhile isSpace).rtakeWhile isSpace) q).map (fun q => (q.a, q.b)) =
      some (q.a, q.b) := by
    rw [readChars_spaces back]
    rfl
  have parts : (readChars e p).map (fun q => (q.a, q.b)) =
      (readChars (trim e) { p with c := (e.takeWhile isSpace).getLastD p.c }).map fun q => (q.a, q.b) := by
    conv_lhs => rw [trim_parts (e := e)]
    rw [readChars_append, readChars_spaces front, Option.bind_some, readChars_append]
    cases readChars (trim e) { p with c := (e.takeWhile isSpace).getLastD p.c } with
    | none => rfl
    | some q => exact behind q
  rw [parts]
  cases text : trim e with
  | nil =>
    rw [List.isEmpty_nil, Bool.not_true, Bool.and_false, if_neg Bool.false_ne_true, elementEnds, text, readChars,
      Option.map_some, fresh.1, fresh.2.1]
    rfl
  | cons c t =>
    have solid : isSpace c = false := head_trim c (by rw [text]; rfl)
    have embedded : embeddedSpace { p with c := (e.takeWhile isSpace).getLastD p.c } =
        (p.totaldigits != 0 && e.head?.any isSpace) := by
      rw [embeddedSpace, isSpace_front calm]
    rw [List.isEmpty_cons, Bool.not_false, Bool.and_true, ← embedded]
    split
    · rename_i caught
      rw [readChars_embedded caught ⟨c, List.mem_cons_self, solid⟩]
      rfl
    · rename_i quiet
      rw [← text, elementEnds]
      exact readChars_text (p := { p with c := (e.takeWhile isSpace).getLastD p.c }) fresh
        (Bool.eq_false_iff.mpr quiet) head_trim getLast_trim

/-- White space at the end of an element that is read. -/
theorem embeddedSpace_behind (calm : isSpace p.c = false) (read : readChars e p = some q) :
    (q.totaldigits != 0) = (p.totaldigits != 0 || e.any Char.isDigit) ∧
    embeddedSpace q = ((p.totaldigits != 0 || e.any Char.isDigit) && e.getLast?.any isSpace) := by
  obtain ⟨final, count⟩ := readChars_trace read
  have digits : (q.totaldigits != 0) = (p.totaldigits != 0 || e.any Char.isDigit) := by
    rw [count, Bool.eq_iff_iff, Bool.or_eq_true, List.any_eq_true, bne_iff_ne, bne_iff_ne, ← List.countP_pos_iff]
    omega
  have space : isSpace q.c = e.getLast?.any isSpace := by
    rw [final, List.getLastD_eq_getLast?]
    cases e.getLast? with
    | none => exact calm
    | some c => rfl
  exact ⟨digits, by rw [embeddedSpace, digits, space]⟩

/-- An element is read as what it sets. -/
theorem readElement_eq (last : Bool) (fresh : p.a = 0 ∧ p.b = 0 ∧ p.expDigit = true ∧ p.inRange = false)
    (calm : isSpace p.c = false) :
    (readElement e last p).map (fun q => (⟨e, q.a, q.b⟩ : ReadRange)) =
      if acceptsElement (p.totaldigits != 0) last e then some (elementSets e) else none := by
  have element := readChars_element (e := e) fresh calm
  rw [readElement, acceptsElement, misplacedSpace]
  cases read : readChars e p with
  | none =>
    rw [read, Option.map_none] at element
    split at element
    · rename_i space
      rw [space]
      rfl
    · have none := Option.map_eq_none_iff.mp element.symm
      rw [none, Option.any_none, Bool.and_false]
      rfl
  | some q =>
    obtain ⟨-, embedded⟩ := embeddedSpace_behind calm read
    rw [read, Option.map_some] at element
    split at element
    · contradiction
    · rename_i space
      obtain ⟨⟨n, m⟩, ends, same⟩ := Option.map_eq_some_iff.mp element.symm
      obtain ⟨first, second⟩ := Prod.mk.inj same
      rw [Bool.not_eq_true] at space
      rw [space, ends, Option.any_some, Bool.false_or, ← embedded, Option.filter_some, elementSets, ends]
      dsimp only [Option.getD_some]
      rw [first, second]
      have condition : ((last || !embeddedSpace q) && decide (Settable q)) =
          (!(embeddedSpace q && !last) && decide (q.a ≤ q.b ∧ q.b < NR_CPUS)) := by
        rw [Bool.not_and, Bool.not_not, Bool.or_comm last]
        rfl
      rw [condition]
      split <;> rfl

/-- The parser reads the elements that are accepted. -/
theorem readRanges_eq (fresh : p.a = 0 ∧ p.b = 0 ∧ p.expDigit = true ∧ p.inRange = false)
    (calm : isSpace p.c = false) :
    readRanges es p = (acceptedFrom es (p.totaldigits != 0)).map elementSets := by
  induction es generalizing p with
  | nil => rfl
  | cons e es ih =>
    have element := readElement_eq (e := e) es.isEmpty fresh calm
    rw [readRanges, acceptedFrom]
    cases read : readElement e es.isEmpty p with
    | none =>
      rw [read, Option.map_none] at element
      split at element
      · contradiction
      · rename_i rejected
        rw [if_neg rejected]
        rfl
    | some q =>
      rw [read, Option.map_some] at element
      split at element
      · rename_i accepted
        obtain ⟨digits, -⟩ := embeddedSpace_behind calm (Option.eq_some_of_filter_eq_some read)
        rw [if_pos accepted, List.map_cons, ← Option.some.inj element]
        dsimp only
        congr 1
        split
        · rfl
        · rw [ih (p := { c := ',', totaldigits := q.totaldigits }) ⟨rfl, rfl, rfl, rfl⟩ rfl, digits]
      · contradiction

end Elements

section Ends

variable {e t ds : List Char} {n m : ℕ}

theorem decimal_eq_some : decimal ds = some n ↔ (ds ≠ [] ∧ ∀ c ∈ ds, c.isDigit = true) ∧ digitsValue ds = n := by
  rw [decimal, Option.ite_none_right_eq_some, Option.some_inj, List.all_eq_true]

theorem not_mem_digits {c : Char} (digits : ∀ d ∈ ds, d.isDigit = true) (other : c.isDigit = false) : c ∉ ds := by
  intro member
  rw [digits c member] at other
  contradiction

/-- A number, or two of them with a `'-'` between. -/
theorem elementRange_eq_some (range : elementRange e = some (n, m)) :
    decimal (trim e) = some n ∧ n = m ∨
      ∃ lo hi, trim e = lo ++ '-' :: hi ∧ decimal lo = some n ∧ decimal hi = some m := by
  have whole : ['-'].intercalate ((trim e).splitOn '-') = trim e := List.intercalate_splitOn '-'
  rw [elementRange] at range
  split at range
  · rename_i t split
    rw [split, List.intercalate_singleton] at whole
    obtain ⟨value, number, same⟩ := Option.map_eq_some_iff.mp range
    obtain ⟨rfl, rfl⟩ := Prod.mk.inj same
    exact .inl ⟨whole ▸ number, rfl⟩
  · rename_i lo hi split
    split at range
    · rename_i low high lowNumber highNumber
      obtain ⟨rfl, rfl⟩ := Prod.mk.inj (Option.some.inj range)
      rw [split] at whole
      exact .inr ⟨lo, hi, by simp [← whole, List.intercalate], lowNumber, highNumber⟩
    · contradiction
  · contradiction

/-- A number and a range have their numbers as ends. -/
theorem elementEnds_of_range (range : elementRange e = some (n, m)) : elementEnds e = some (n, m) := by
  rcases elementRange_eq_some range with ⟨number, rfl⟩ | ⟨lo, hi, text, low, high⟩
  · obtain ⟨⟨-, digits⟩, rfl⟩ := decimal_eq_some.mp number
    rw [elementEnds, textEnds, List.dropWhile_eq_nil_iff.mpr digits, List.takeWhile_eq_self_iff.mpr digits]
  · obtain ⟨⟨some, lows⟩, rfl⟩ := decimal_eq_some.mp low
    obtain ⟨⟨-, highs⟩, rfl⟩ := decimal_eq_some.mp high
    have dash : ¬ ('-' : Char).isDigit = true := by decide
    have front : (trim e).takeWhile Char.isDigit = lo := by
      rw [text, List.takeWhile_append_of_pos lows, List.takeWhile_cons_of_neg dash, List.append_nil]
    have back : (trim e).dropWhile Char.isDigit = '-' :: hi := by
      rw [text, List.dropWhile_append_of_pos lows, List.dropWhile_cons_of_neg dash]
    rw [elementEnds, textEnds, front, back]
    exact if_pos ⟨some, List.all_eq_true.mpr highs⟩

/-- The element is blank, or an open range. -/
def Unfinished (e : List Char) : Prop := trim e = [] ∨ (trim e).getLast? = some '-'

/-- A number and a range are finished. -/
theorem not_unfinished (range : elementRange e = some (n, m)) : ¬ Unfinished e := by
  have digit {ds u : List Char} {n : ℕ} (number : decimal ds = some n) (text : trim e = u ++ ds) : ¬ Unfinished e := by
    obtain ⟨⟨some, digits⟩, -⟩ := decimal_eq_some.mp number
    rw [Unfinished, text]
    rintro (none | dash)
    · exact some (List.append_eq_nil_iff.mp none).2
    · rw [List.getLast?_append_of_ne_nil _ some] at dash
      exact absurd (digits _ (List.mem_of_getLast? dash)) (by decide)
  rcases elementRange_eq_some range with ⟨number, -⟩ | ⟨lo, hi, text, -, high⟩
  · exact digit (u := []) number rfl
  · exact digit (u := lo ++ ['-']) high (by rw [text, List.append_assoc]; rfl)

/-- An element with ends is a number or a range, or it is unfinished and its last number is missing. -/
theorem elementEnds_cases (ends : elementEnds e = some (n, m)) :
    elementRange e = some (n, m) ∨ Unfinished e ∧ m = 0 := by
  have digits : ∀ d ∈ (trim e).takeWhile Char.isDigit, d.isDigit = true := fun d => List.mem_takeWhile_imp
  have dash : ('-' : Char).isDigit = false := by decide
  have whole : (trim e).takeWhile Char.isDigit ++ (trim e).dropWhile Char.isDigit = trim e :=
    List.takeWhile_append_dropWhile
  rw [elementEnds, textEnds] at ends
  split at ends
  · rename_i none
    obtain ⟨rfl, rfl⟩ := Prod.mk.inj (Option.some.inj ends)
    rw [none, List.append_nil] at whole
    rw [whole] at digits ⊢
    by_cases blank : trim e = []
    · exact .inr ⟨.inl blank, by rw [blank]; rfl⟩
    · left
      rw [elementRange, List.splitOn_eq_singleton (not_mem_digits digits dash)]
      dsimp only
      rw [decimal_eq_some.mpr ⟨⟨blank, digits⟩, rfl⟩]
      rfl
  · rename_i last behind
    split at ends
    · rename_i both
      obtain ⟨some, all⟩ := both
      obtain ⟨rfl, rfl⟩ := Prod.mk.inj (Option.some.inj ends)
      rw [behind] at whole
      rw [List.all_eq_true] at all
      by_cases missing : last = []
      · subst missing
        exact .inr ⟨.inr (by rw [← whole, List.getLast?_concat]), rfl⟩
      · left
        rw [elementRange, ← whole, List.splitOn_append_cons_self_of_not_mem (not_mem_digits digits dash),
          List.splitOn_eq_singleton (not_mem_digits all dash), whole]
        dsimp only
        rw [decimal_eq_some.mpr ⟨⟨some, digits⟩, rfl⟩, decimal_eq_some.mpr ⟨⟨missing, all⟩, rfl⟩]
    · contradiction
  · contradiction

end Ends

section List

/-- The elements of a list that are read. -/
def acceptedElements (list : List Char) : List (List Char) := acceptedFrom (list.splitOn ',') false

/-- The elements of a list from the first one on that is not read. -/
def rejectedElements (list : List Char) : List (List Char) :=
  (list.splitOn ',').drop (acceptedElements list).length

variable {list e : List Char} {es : List (List Char)} {digits : Bool}

/-- The parser reads a list by its elements. -/
theorem listRanges_eq : listRanges list = (acceptedElements list).map elementSets :=
  readRanges_eq ⟨rfl, rfl, rfl, rfl⟩ rfl

theorem acceptedFrom_prefix : acceptedFrom es digits <+: es := by
  induction es generalizing digits with
  | nil => exact List.prefix_rfl
  | cons e es ih =>
    rw [acceptedFrom]
    split
    · rw [List.cons_prefix_cons]
      refine ⟨rfl, ?_⟩
      split
      · exact List.nil_prefix
      · exact ih
    · exact List.nil_prefix

theorem mem_of_accepted (accepted : e ∈ acceptedElements list) : e ∈ list.splitOn ',' :=
  acceptedFrom_prefix.subset accepted

theorem accepted_or_rejected (element : e ∈ list.splitOn ',') :
    e ∈ acceptedElements list ∨ e ∈ rejectedElements list := by
  have start : acceptedElements list = (list.splitOn ',').take (acceptedElements list).length :=
    List.prefix_iff_eq_take.mp acceptedFrom_prefix
  rw [← List.take_append_drop (acceptedElements list).length (list.splitOn ','), ← start] at element
  exact List.mem_append.mp element

/-- An accepted element has numbers in order and below `NR_CPUS`. -/
theorem ends_of_accepted (accepted : e ∈ acceptedFrom es digits) :
    ∃ n m : ℕ, elementEnds e = some (n, m) ∧ toInt n ≤ toInt m ∧ toInt m < NR_CPUS := by
  induction es generalizing digits with
  | nil => contradiction
  | cons f es ih =>
    rw [acceptedFrom] at accepted
    split at accepted
    · rename_i taken
      rcases List.mem_cons.mp accepted with rfl | later
      · rw [acceptsElement, Bool.and_eq_true, Option.any_eq_true] at taken
        obtain ⟨-, ⟨n, m⟩, ends, valid⟩ := taken
        exact ⟨n, m, ends, of_decide_eq_true valid⟩
      · split at later
        · contradiction
        · exact ih later
    · contradiction

end List

end Irqbalance
