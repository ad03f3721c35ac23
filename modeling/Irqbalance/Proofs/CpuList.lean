import Irqbalance.Model.Bans
import Mathlib.Data.List.DropRight
import Mathlib.Tactic.Ring

/-! # What the list parser reads

`__bitmap_parselist` taken apart at the commas. `readElement` is the parser on one element, and
`readRanges` the elements it gets through with the ranges it sets, up to the first one it rejects.
A number or a range below `NR_CPUS` is never misread.
-/

namespace Irqbalance

open CText

section Bits

variable {mask : CpuMask}

theorem getLsbD_cpumaskOfCpu {n : ℕ} (bound : n < NR_CPUS) (i : ℕ) :
    (cpumaskOfCpu n).getLsbD i = decide (i = n) := by
  rw [cpumaskOfCpu, BitVec.getLsbD_ofNat, Nat.testBit_two_pow]
  by_cases same : i = n
  · simp [same, bound]
  · simp [same, Ne.symm same]

/-- `set_bit` from `a` on sets the next `count` bits. -/
theorem getLsbD_setBits {a count : ℕ} (bound : a + count ≤ NR_CPUS) (i : ℕ) :
    (setBits a count mask).getLsbD i = (mask.getLsbD i || decide (a ≤ i ∧ i < a + count)) := by
  induction count generalizing a mask with
  | zero =>
    simp [setBits]
  | succ count ih =>
    rw [setBits, ih (by omega), setBit, BitVec.getLsbD_or, getLsbD_cpumaskOfCpu (by omega), Bool.or_assoc,
      ← Bool.decide_or]
    congr 2
    rw [eq_iff_iff]
    omega

end Bits

/-- The parser on characters other than `','`, until it rejects one. -/
def readChars : List Char → ListState → Option ListState
  | [], st => some st
  | c :: rest, st =>
    if isSpace c then readChars rest { st with c := c }
    else if st.totaldigits ≠ 0 ∧ isSpace st.c then none
    else if c = '-' then
      if st.expDigit || st.inRange then none
      else readChars rest { st with c := c, b := 0, inRange := true, expDigit := true }
    else if !c.isDigit then none
    else
      let b := toInt (st.b * 10 + (c.toNat - '0'.toNat : ℕ))
      readChars rest
        { st with
          c := c, b := b, a := if st.inRange then st.a else b
          expDigit := false, totaldigits := st.totaldigits + 1 }

/-- White space where the parser does not accept it. -/
def embeddedSpace (st : ListState) : Bool := st.totaldigits != 0 && isSpace st.c

/-- The numbers of an element are in order and below `NR_CPUS`. -/
def Settable (st : ListState) : Prop := st.a ≤ st.b ∧ st.b < NR_CPUS

instance (st : ListState) : Decidable (Settable st) := inferInstanceAs (Decidable (_ ∧ _))

/-- The parser on an element; a comma may not follow embedded white space. -/
def readElement (e : List Char) (last : Bool) (st : ListState) : Option ListState :=
  (readChars e st).filter fun st => (last || !embeddedSpace st) && decide (Settable st)

/-- An element that was read, with the first and the last number it sets. -/
structure ReadRange where
  element : List Char
  first : ℤ
  last : ℤ
deriving DecidableEq, Repr

/-- The CPU is set by a range. -/
def ReadRange.covers (r : ReadRange) (cpu : ℕ) : Prop := r.first ≤ cpu ∧ cpu ≤ r.last

instance (r : ReadRange) (cpu : ℕ) : Decidable (r.covers cpu) := inferInstanceAs (Decidable (_ ∧ _))

/-- The elements that are read. Nothing is read behind a comma that ends the list. -/
def readRanges : List (List Char) → ListState → List ReadRange
  | [], _ => []
  | e :: es, st =>
    match readElement e es.isEmpty st with
    | none => []
    | some st => ⟨e, st.a, st.b⟩ ::
        if es = [[]] then [] else readRanges es { c := ',', totaldigits := st.totaldigits }

/-- Set the bits of ranges below `NR_CPUS`; `none` when a range starts below 0. -/
def setRanges : List ReadRange → CpuMask → Option CpuMask
  | [], mask => some mask
  | r :: ranges, mask =>
    if r.first < 0 then none
    else setRanges ranges (setBits r.first.toNat (r.last - r.first + 1).toNat mask)

section Elements

variable {p : ListState} {mask : CpuMask} {e t : List Char}

/-- The parser on the characters of an element, followed by a comma or the end. -/
theorem parselistFrom_append (comma : ',' ∉ e) (nul : '\x00' ∉ e) :
    parselistFrom (e ++ t) p mask = match readChars e p with
      | none => some (mask, some .EINVAL)
      | some p => parselistFrom t p mask := by
  induction e generalizing p with
  | nil => rfl
  | cons c e ih =>
    have notComma : c ≠ ',' := fun same => comma (same ▸ List.mem_cons_self)
    have notNul : c ≠ '\x00' := fun same => nul (same ▸ List.mem_cons_self)
    have tail (p : ListState) := ih (p := p) (fun member => comma (List.mem_cons_of_mem c member))
      (fun member => nul (List.mem_cons_of_mem c member))
    rw [List.cons_append, parselistFrom, readChars]
    simp only [notComma, notNul, if_false, ne_eq, not_false_eq_true, true_and, tail]
    split
    · rfl
    split
    · rfl
    split
    · split <;> rfl
    split <;> rfl

theorem endRange_settable (settable : Settable p) : endRange p mask =
    if p.a < 0 then none else some (setBits p.a.toNat (p.b - p.a + 1).toNat mask, none) := by
  obtain ⟨order, bound⟩ := settable
  simp only [endRange, order, not_true_eq_false, ge_iff_le, not_le.mpr bound, if_false]

theorem endRange_rejected (mask : CpuMask) (rejected : ¬ Settable p) :
    ∃ error, endRange p mask = some (mask, some error) := by
  by_cases order : p.a ≤ p.b
  · have bound : (NR_CPUS : ℤ) ≤ p.b := not_lt.mp fun bound => rejected ⟨order, bound⟩
    exact ⟨.ERANGE, by simp only [endRange, order, bound, not_true_eq_false, if_true, if_false]⟩
  · exact ⟨.EINVAL, by simp only [endRange, order, not_false_eq_true, if_true]⟩

/-- The parser on the comma behind an element. -/
theorem parselistFrom_comma : (parselistFrom (',' :: t) p mask).map Prod.fst =
    if embeddedSpace p = false ∧ Settable p then
      if p.a < 0 then none
      else
        let mask := setBits p.a.toNat (p.b - p.a + 1).toNat mask
        if t = [] then some mask
        else (parselistFrom t { c := ',', totaldigits := p.totaldigits } mask).map Prod.fst
    else some mask := by
  have space : isSpace ',' = false := by decide
  have nul : (',' : Char) ≠ '\x00' := by decide
  rw [parselistFrom]
  simp only [space, Bool.false_eq_true, if_false, nul, ne_eq, not_false_eq_true, true_and, if_true]
  cases embedded : embeddedSpace p with
  | true =>
    have embedded : p.totaldigits ≠ 0 ∧ isSpace p.c = true := by simpa [embeddedSpace] using embedded
    simp [embedded]
  | false =>
    have calm : ¬ (p.totaldigits ≠ 0 ∧ isSpace p.c = true) := by
      simpa [embeddedSpace] using embedded
    rw [if_neg calm]
    by_cases settable : Settable p
    · rw [endRange_settable (p := { p with c := ',' }) settable,
        if_pos (⟨rfl, settable⟩ : false = false ∧ Settable p)]
      by_cases negative : p.a < 0
      · simp [negative]
      · simp only [negative, if_false, List.isEmpty_iff]
        split
        · rfl
        · rfl
    · obtain ⟨error, rejected⟩ := endRange_rejected (p := { p with c := ',' }) mask settable
      rw [rejected, if_neg fun both => settable both.2]
      rfl

/-- The whole parser, element by element. -/
theorem parselistFrom_intercalate {es : List (List Char)} (nonempty : es ≠ [])
    (commas : ∀ e ∈ es, ',' ∉ e) (nuls : ∀ e ∈ es, '\x00' ∉ e) :
    (parselistFrom ([','].intercalate es) p mask).map Prod.fst = setRanges (readRanges es p) mask := by
  induction es generalizing p mask with
  | nil => contradiction
  | cons e es ih =>
    have comma := commas e List.mem_cons_self
    have nul := nuls e List.mem_cons_self
    cases es with
    | nil =>
      have single : [','].intercalate [e] = e ++ [] := by simp [List.intercalate]
      rw [single, parselistFrom_append comma nul, readRanges, readElement]
      cases readChars e p with
      | none => rfl
      | some p' =>
        simp only [parselistFrom, List.isEmpty_nil, Bool.true_or, Bool.true_and, Option.filter_some,
          decide_eq_true_eq]
        by_cases settable : Settable p'
        · rw [endRange_settable settable, if_pos settable]
          by_cases negative : p'.a < 0
          · simp [setRanges, negative]
          · simp [setRanges, negative, readRanges]
        · obtain ⟨error, rejected⟩ := endRange_rejected mask settable
          rw [rejected, if_neg settable]
          rfl
    | cons next es =>
      have joined : [','].intercalate (e :: next :: es) = e ++ ',' :: [','].intercalate (next :: es) := by
        simp [List.intercalate]
      have done : [','].intercalate (next :: es) = [] ↔ next :: es = [[]] := by
        cases es with
        | nil => simp [List.intercalate]
        | cons _ _ => simp [List.intercalate]
      rw [joined, parselistFrom_append comma nul, readRanges, readElement]
      cases readChars e p with
      | none => rfl
      | some p' =>
        simp only [parselistFrom_comma, List.isEmpty_cons, Bool.false_or, Option.filter_some,
          Bool.and_eq_true, Bool.not_eq_true', decide_eq_true_eq, done]
        by_cases accepted : embeddedSpace p' = false ∧ Settable p'
        · rw [if_pos accepted, if_pos accepted]
          by_cases negative : p'.a < 0
          · simp only [setRanges, negative, if_true]
          · simp only [setRanges, negative, if_false]
            split
            · rfl
            · exact ih (List.cons_ne_nil next es) (fun e member => commas e (List.mem_cons_of_mem _ member))
                fun e member => nuls e (List.mem_cons_of_mem _ member)
        · rw [if_neg accepted, if_neg accepted]
          rfl

end Elements

section Ranges

variable {es : List (List Char)} {p : ListState} {mask : CpuMask} {ranges : List ReadRange}

/-- What is read is in order and below `NR_CPUS`. -/
theorem readRanges_valid {r : ReadRange} (member : r ∈ readRanges es p) :
    r.first ≤ r.last ∧ r.last < NR_CPUS := by
  induction es generalizing p with
  | nil => contradiction
  | cons e es ih =>
    rw [readRanges] at member
    split at member
    · contradiction
    · rename_i p' read
      have settable : Settable p' := by
        have passed := Option.eq_some_of_filter_eq_some read ▸ read
        simp only [readElement, Option.filter_eq_some_iff, Bool.and_eq_true, decide_eq_true_eq] at read
        exact read.2.2
      rcases List.mem_cons.mp member with rfl | later
      · exact settable
      · split at later
        · contradiction
        · exact ih later

theorem setRanges_none (underrun : ∃ r ∈ ranges, r.first < 0) : setRanges ranges mask = none := by
  induction ranges generalizing mask with
  | nil =>
    obtain ⟨_, member, _⟩ := underrun
    contradiction
  | cons r ranges ih =>
    rw [setRanges]
    split
    · rfl
    · rename_i positive
      obtain ⟨r', member, negative⟩ := underrun
      rcases List.mem_cons.mp member with rfl | later
      · exact absurd negative positive
      · exact ih ⟨r', later, negative⟩

/-- Ranges from 0 on set exactly the CPUs they cover. -/
theorem setRanges_some (mask : CpuMask) (valid : ∀ r ∈ ranges, r.first ≤ r.last ∧ r.last < NR_CPUS)
    (positive : ∀ r ∈ ranges, 0 ≤ r.first) : ∃ m, setRanges ranges mask = some m ∧
      ∀ cpu, m.getLsbD cpu = true ↔ mask.getLsbD cpu = true ∨ ∃ r ∈ ranges, r.covers cpu := by
  induction ranges generalizing mask with
  | nil => exact ⟨mask, rfl, fun cpu => by simp⟩
  | cons r ranges ih =>
    obtain ⟨order, bound⟩ := valid r List.mem_cons_self
    have start := positive r List.mem_cons_self
    obtain ⟨m, set, bits⟩ := ih (setBits r.first.toNat (r.last - r.first + 1).toNat mask)
      (fun r' member => valid r' (List.mem_cons_of_mem r member))
      (fun r' member => positive r' (List.mem_cons_of_mem r member))
    refine ⟨m, by rw [setRanges, if_neg (not_lt.mpr start), set], fun cpu => ?_⟩
    have inside : (r.first.toNat ≤ cpu ∧ cpu < r.first.toNat + (r.last - r.first + 1).toNat) ↔
        r.covers cpu := by
      unfold ReadRange.covers
      omega
    rw [bits, getLsbD_setBits (by omega), Bool.or_eq_true, decide_eq_true_eq, inside, or_assoc,
      List.exists_mem_cons_iff]

end Ranges

section Documented

/-- White space at both ends is not part of an element. -/
def trim (e : List Char) : List Char := (e.dropWhile isSpace).rdropWhile isSpace

/-- A decimal number. -/
def decimal (t : List Char) : Option ℕ :=
  if t ≠ [] ∧ t.all Char.isDigit = true then some (digitsValue t) else none

/-- The first and the last number of an element of the documented form: a number or a range. -/
def elementRange (e : List Char) : Option (ℕ × ℕ) :=
  match (trim e).splitOn '-' with
  | [n] => (decimal n).map fun n => (n, n)
  | [first, last] =>
    match decimal first, decimal last with
    | some first, some last => some (first, last)
    | _, _ => none
  | _ => none

/-- The CPU is one of those an element denotes. An empty element denotes none, and neither does
an element of another form. -/
def Names (e : List Char) (cpu : ℕ) : Prop :=
  cpu < NR_CPUS ∧ ∃ range, elementRange e = some range ∧ range.1 ≤ cpu ∧ cpu ≤ range.2

/-- The CPU is one of those a comma-separated list of numbers and ranges denotes. -/
def Listed (list : List Char) (cpu : ℕ) : Prop := ∃ e ∈ list.splitOn ',', Names e cpu

/-- A number or a range of CPUs below `NR_CPUS`. -/
def Plain (e : List Char) : Prop :=
  ∃ range, elementRange e = some range ∧ range.1 ≤ range.2 ∧ range.2 < NR_CPUS

instance (e : List Char) : Decidable (Plain e) :=
  decidable_of_iff ((elementRange e).any fun range => decide (range.1 ≤ range.2 ∧ range.2 < NR_CPUS))
    (by simp [Plain, Option.any_eq_true])

variable {p : ListState} {t ds : List Char}

theorem readChars_append {u : List Char} : readChars (u ++ t) p = (readChars u p).bind (readChars t) := by
  induction u generalizing p with
  | nil => rfl
  | cons c u ih =>
    simp only [List.cons_append, readChars, ih]
    split
    · rfl
    split
    · rfl
    split
    · split <;> rfl
    split <;> rfl

theorem readChars_spaces {ws : List Char} (spaces : ∀ c ∈ ws, isSpace c = true) :
    readChars ws p = some { p with c := ws.getLastD p.c } := by
  induction ws generalizing p with
  | nil => rfl
  | cons c ws ih =>
    rw [readChars, if_pos (spaces c List.mem_cons_self),
      ih fun d member => spaces d (List.mem_cons_of_mem c member), List.getLastD_cons]

theorem toInt_digit (b d : ℤ) : toInt (toInt b * 10 + d) = toInt (10 * b + d) := by
  rw [toInt, toInt, toInt, ← Int.bmod_add_bmod, Int.bmod_mul_bmod, Int.bmod_add_bmod, mul_comm]

theorem readChars_digit {d : Char} {b : ℕ} (digit : d.isDigit = true) (start : p.b = toInt b) :
    readChars (d :: t) p = if embeddedSpace p then none else
      readChars t
        { p with
          c := d, b := toInt (10 * b + (d.toNat - '0'.toNat) : ℕ)
          a := if p.inRange then p.a else toInt (10 * b + (d.toNat - '0'.toNat) : ℕ)
          expDigit := false, totaldigits := p.totaldigits + 1 } := by
  have solid := isSpace_of_isDigit digit
  have minus : d ≠ '-' := by
    rintro rfl
    exact absurd digit (by decide)
  have step : toInt (p.b * 10 + (d.toNat - '0'.toNat : ℕ)) =
      toInt (10 * b + (d.toNat - '0'.toNat) : ℕ) := by
    rw [start, toInt_digit]
    push_cast
    rfl
  have embedded : (p.totaldigits ≠ 0 ∧ isSpace p.c = true) ↔ embeddedSpace p = true := by
    simp [embeddedSpace]
  rw [readChars, if_neg (by simp [solid])]
  simp only [embedded, minus, if_false, digit, Bool.not_true, Bool.false_eq_true, step]

/-- Digits are accumulated unless white space is embedded in front of them. -/
theorem readChars_digits {b : ℕ} (digits : ∀ c ∈ ds, c.isDigit = true) (start : p.b = toInt b)
    (single : ds = [] → p.inRange = false → p.a = p.b) (calm : ds = [] ∨ embeddedSpace p = false) :
    readChars (ds ++ t) p = readChars t
      { p with
        c := ds.getLastD p.c, b := toInt (Nat.ofDigitChars 10 ds b)
        a := if p.inRange then p.a else toInt (Nat.ofDigitChars 10 ds b)
        expDigit := p.expDigit && ds.isEmpty, totaldigits := p.totaldigits + ds.length } := by
  induction ds generalizing p b with
  | nil =>
    have first : (if p.inRange then p.a else toInt b) = p.a := by
      split
      · rfl
      · rename_i alone
        rw [← start, single rfl (Bool.not_eq_true _ ▸ alone)]
    rw [Nat.ofDigitChars_nil, first, ← start, List.isEmpty_nil, Bool.and_true]
    rfl
  | cons d ds ih =>
    have digit := digits d List.mem_cons_self
    have calm := calm.resolve_left (List.cons_ne_nil d ds)
    have solid := isSpace_of_isDigit digit
    rw [Nat.ofDigitChars_cons, List.cons_append, readChars_digit digit start, calm, if_neg Bool.false_ne_true]
    rw [ih (b := 10 * b + (d.toNat - '0'.toNat)) (fun c member => digits c (List.mem_cons_of_mem d member)) ?_ ?_ ?_]
    · simp only [List.getLastD_cons, List.length_cons, List.isEmpty_cons, Bool.and_false, Bool.false_and,
        Nat.add_assoc, Nat.add_comm 1]
      congr 2
      exact ite_congr rfl (fun second => if_pos second) fun _ => rfl
    · dsimp only
    · intro _ alone
      dsimp only at alone ⊢
      rw [alone, if_neg Bool.false_ne_true]
    · simp only [embeddedSpace, solid, Bool.and_false, or_true]

end Documented

section Parser

/-- What the parser reads of a list. -/
def listRanges (list : List Char) : List ReadRange := readRanges (list.splitOn ',') {}

variable {list : List Char}

theorem cpulistParse_eq : (cpulistParse list).map Prod.fst =
    setRanges (listRanges (cString list)) CPU_MASK_NONE := by
  have whole : [','].intercalate ((cString list).splitOn ',') = cString list :=
    List.intercalate_splitOn ','
  rw [cpulistParse, ← whole, parselistFrom_intercalate (List.splitOn_ne_nil ',' _), whole, listRanges]
  · exact fun e piece comma => (mem_of_mem_splitOn piece comma).2 rfl
  · exact fun e piece nul => nul_not_mem_cString (mem_of_mem_splitOn piece nul).1

end Parser

end Irqbalance
