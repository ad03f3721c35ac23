import Irqbalance.Model.Ui
import Irqbalance.Proofs.CpuList

/-! # The CPUs of an interrupt on the screen

`print_assigned_objects_string` prints the runs of an ascending list. The variables `rbot` and `rtop`
hold the run that has not been printed yet. It is printed last, and for an empty list there is none.
-/

namespace Irqbalance

open CText

/-- The elements of a comma-separated list. -/
def listElements (text : List Char) : List (List Char) := if text = [] then [] else text.splitOn ','

/-- A comma-separated list of numbers and ranges that denotes these numbers. -/
structure ReadsAs (text : List Char) (numbers : List ℤ) : Prop where
  formed : ∀ e ∈ listElements text, elementRange e ≠ none
  denotes : ∀ n : ℤ, n ∈ numbers ↔
    ∃ e ∈ listElements text, ∃ range, elementRange e = some range ∧ (range.1 : ℤ) ≤ n ∧ n ≤ range.2

/-- A run as it is printed. -/
def showRun (run : ℤ × ℤ) : List Char :=
  if run.1 = run.2 then showInt run.1 else showInt run.1 ++ '-' :: showInt run.2

/-- The runs that have been printed. -/
def showRuns (runs : List (ℤ × ℤ)) : List Char := [','].intercalate (runs.map showRun)

/-- The runs of an ascending list behind the numbers of its first run so far, with the comparison of
`copy_assigned_obj`. -/
def runsFrom : ℤ × ℤ → List ℤ → List (ℤ × ℤ)
  | run, [] => [run]
  | run, number :: rest =>
    if number > toInt (run.2 + 1) then run :: runsFrom (number, number) rest else runsFrom (run.1, number) rest

/-- The runs of an ascending list. -/
def runsOf : List ℤ → List (ℤ × ℤ)
  | [] => []
  | number :: rest => runsFrom (number, number) rest

/-- One of the runs contains the number. -/
def InRuns (runs : List (ℤ × ℤ)) (n : ℤ) : Prop := ∃ run ∈ runs, run.1 ≤ n ∧ n ≤ run.2

section Runs

variable {buflen : ℕ} {runs : List (ℤ × ℤ)} {run : ℤ × ℤ} {bounds : Bounds} {numbers rest : List ℤ} {n : ℤ}

theorem inRuns_cons : InRuns (run :: runs) n ↔ (run.1 ≤ n ∧ n ≤ run.2) ∨ InRuns runs n := by
  simp [InRuns]

/-- A number that does not start a run is the last one or the next one. -/
theorem le_of_not_gt_toInt {number top : ℤ} (positive : 0 ≤ top) (int : IsInt number)
    (joined : ¬ number > toInt (top + 1)) : number ≤ top + 1 := by
  obtain ⟨_, below⟩ := int
  by_cases last : top + 1 < 2 ^ 31
  · rw [toInt_of_isInt ⟨by omega, last⟩] at joined
    exact not_lt.mp joined
  · omega

/-- The runs contain exactly the numbers of the list. -/
theorem inRuns_runsFrom (run : ℤ × ℤ) (ascending : (run.2 :: rest).Pairwise (· ≤ ·))
    (order : 0 ≤ run.1 ∧ run.1 ≤ run.2) (ints : ∀ n ∈ rest, IsInt n) :
    InRuns (runsFrom run rest) n ↔ (run.1 ≤ n ∧ n ≤ run.2) ∨ n ∈ rest := by
  induction rest generalizing run with
  | nil => simp [runsFrom, InRuns]
  | cons number rest ih =>
    have above : run.2 ≤ number := List.rel_of_pairwise_cons ascending List.mem_cons_self
    have tail : (number :: rest).Pairwise (· ≤ ·) := ascending.of_cons
    have later : ∀ n ∈ rest, IsInt n := fun n member => ints n (List.mem_cons_of_mem number member)
    rw [runsFrom, List.mem_cons]
    split
    · have single : number ≤ n ∧ n ≤ number ↔ n = number := by omega
      rw [inRuns_cons, ih _ tail ⟨by dsimp only; omega, le_rfl⟩ later, single]
    · rename_i joined
      have next := le_of_not_gt_toInt (by omega) (ints number List.mem_cons_self) joined
      have longer : run.1 ≤ n ∧ n ≤ number ↔ (run.1 ≤ n ∧ n ≤ run.2) ∨ n = number := by omega
      rw [ih (run.1, number) tail ⟨order.1, order.2.trans above⟩ later, longer, or_assoc]

/-- The runs are not empty and have no negative numbers. -/
theorem mem_runsFrom {one : ℤ × ℤ} (run : ℤ × ℤ) (ascending : (run.2 :: rest).Pairwise (· ≤ ·))
    (order : 0 ≤ run.1 ∧ run.1 ≤ run.2) (member : one ∈ runsFrom run rest) : 0 ≤ one.1 ∧ one.1 ≤ one.2 := by
  induction rest generalizing run with
  | nil =>
    rw [List.mem_singleton.mp member]
    exact order
  | cons number rest ih =>
    have above : run.2 ≤ number := List.rel_of_pairwise_cons ascending List.mem_cons_self
    have tail : (number :: rest).Pairwise (· ≤ ·) := ascending.of_cons
    rw [runsFrom] at member
    split at member
    · rcases List.mem_cons.mp member with rfl | later
      · exact order
      · exact ih _ tail ⟨by dsimp only; omega, le_rfl⟩ later
    · exact ih (run.1, number) tail ⟨order.1, order.2.trans above⟩ member

theorem runsFrom_ne_nil : runsFrom run rest ≠ [] := by
  induction rest generalizing run with
  | nil => exact List.cons_ne_nil _ _
  | cons number rest ih =>
    rw [runsFrom]
    split
    · exact List.cons_ne_nil _ _
    · exact ih

theorem showRuns_append (some : runs ≠ []) : showRuns (runs ++ [run]) = showRuns runs ++ [','] ++ showRun run := by
  rw [showRuns, List.map_append, List.map_singleton, intercalate_append_singleton, showRuns,
    intercalate_append_sep (by simpa using some)]

theorem showRun_ne_nil : showRun run ≠ [] := by
  have number : showInt run.1 ≠ [] := word_showInt.1
  unfold showRun
  split
  · exact number
  · exact List.append_ne_nil_of_left_ne_nil number _

theorem showRuns_eq_nil_iff : showRuns runs = [] ↔ runs = [] := by
  constructor
  · intro none
    by_contra some
    obtain ⟨front, last, rfl⟩ := (List.eq_nil_or_concat runs).resolve_left some
    rw [List.concat_eq_append, showRuns, List.map_append, List.map_singleton, intercalate_append_singleton] at none
    exact showRun_ne_nil (List.append_eq_nil_iff.mp none).2
  · rintro rfl
    rfl

/-- A run is printed behind those before it. -/
theorem bsnlEmit_showRuns (buflen : ℕ) (runs : List (ℤ × ℤ)) (bounds : Bounds) :
    bsnlEmit buflen bounds ((showRuns runs).take (buflen - 1)) =
    (showRuns (runs ++ [(bounds.rbot, bounds.rtop)])).take (buflen - 1) := by
  have shown (buf : List Char) : (if bounds.rbot = bounds.rtop then appendBounded buflen buf (showInt bounds.rbot)
      else appendBounded buflen buf (showInt bounds.rbot ++ '-' :: showInt bounds.rtop)) =
        (buf ++ showRun (bounds.rbot, bounds.rtop)).take (buflen - 1) := by
    unfold showRun
    split
    · rfl
    · rfl
  unfold bsnlEmit
  dsimp only
  rw [shown]
  by_cases none : runs = []
  · subst none
    simp [showRuns]
  · rw [showRuns_append none]
    split
    · rename_i empty
      -- nothing fits into the buffer
      have full : buflen - 1 = 0 := by
        by_contra room
        have text := List.take_eq_nil_iff.mp (List.isEmpty_iff.mp empty)
        exact none (showRuns_eq_nil_iff.mp (text.resolve_left room))
      rw [full, List.take_zero, List.take_zero]
    · rw [appendBounded, take_append_take, List.append_assoc, take_append_take, List.append_assoc]

/-- The walk behind the first number, and the last `bsnl_emit`. -/
theorem bsnlEmit_forEach {bounds' : Bounds} {data : List Char} (buflen : ℕ) (runs : List (ℤ × ℤ))
    (bounds : Bounds) (ascending : (bounds.rtop :: rest).Pairwise (· ≤ ·)) (positive : 0 ≤ bounds.rtop)
    (walked : forEach rest (copyAssignedObj buflen) (bounds, (showRuns runs).take (buflen - 1)) = (bounds', data)) :
    bsnlEmit buflen bounds' data =
      (showRuns (runs ++ runsFrom (bounds.rbot, bounds.rtop) rest)).take (buflen - 1) := by
  induction rest generalizing bounds runs with
  | nil =>
    obtain ⟨rfl, rfl⟩ := Prod.mk.inj walked
    exact bsnlEmit_showRuns buflen runs bounds
  | cons number rest ih =>
    have above : bounds.rtop ≤ number := List.rel_of_pairwise_cons ascending List.mem_cons_self
    have tail : (number :: rest).Pairwise (· ≤ ·) := ascending.of_cons
    have started : bounds.rtop ≠ -1 := by omega
    rw [forEach, List.foldl_cons, ← forEach, copyAssignedObj, if_neg started] at walked
    rw [runsFrom]
    split at walked
    · rename_i gap
      rw [bsnlEmit_showRuns] at walked
      rw [if_pos gap, ← List.singleton_append, ← List.append_assoc]
      exact ih _ _ tail (positive.trans above) walked
    · rename_i joined
      rw [if_neg joined]
      exact ih _ { bounds with rtop := number } tail (positive.trans above) walked

/-- For an empty list a run is printed that has not been started. -/
theorem assignedObjectsString_nil :
    (assignedObjectsString buflen [] bounds).2 = (showRuns [(bounds.rbot, -1)]).take (buflen - 1) := by
  have text := bsnlEmit_showRuns buflen [] { bounds with rtop := -1 }
  rw [showRuns, List.map_nil, List.intercalate_nil, List.take_nil] at text
  exact text

/-- What is printed for a list that is not empty, whatever the variables hold. -/
theorem assignedObjectsString_eq (buflen : ℕ) (bounds : Bounds) (some : numbers ≠ [])
    (ascending : numbers.Pairwise (· ≤ ·)) (cpus : ∀ n ∈ numbers, 0 ≤ n) :
    (assignedObjectsString buflen numbers bounds).2 = (showRuns (runsOf numbers)).take (buflen - 1) := by
  obtain ⟨number, rest, rfl⟩ := List.exists_cons_of_ne_nil some
  rw [assignedObjectsString, forEach, List.foldl_cons, ← forEach, copyAssignedObj, if_pos rfl]
  have text := bsnlEmit_forEach buflen [] { rbot := number, rtop := number } ascending
    (cpus number List.mem_cons_self) rfl
  rw [showRuns, List.map_nil, List.intercalate_nil, List.take_nil] at text
  exact text

end Runs

section Reading

variable {runs : List (ℤ × ℤ)} {run : ℤ × ℤ} {numbers : List ℤ} {e : List Char} {c : Char} {z : ℤ} {m : ℕ}

theorem mem_showInt (member : c ∈ showInt z) : c.isDigit = true ∨ c = '-' := by
  cases z with
  | ofNat n => exact .inl (isDigit_showNat member)
  | negSucc n =>
    rcases List.mem_cons.mp member with minus | digit
    · exact .inr minus
    · exact .inl (isDigit_showNat digit)

theorem mem_showRun (member : c ∈ showRun run) : c.isDigit = true ∨ c = '-' := by
  unfold showRun at member
  split at member
  · exact mem_showInt member
  · rcases List.mem_append.mp member with first | second
    · exact mem_showInt first
    · rcases List.mem_cons.mp second with minus | last
      · exact .inr minus
      · exact mem_showInt last

theorem comma_not_mem_showRun : ',' ∉ showRun run := by
  intro member
  rcases mem_showRun member with digit | minus
  · contradiction
  · contradiction

theorem trim_showRun : trim (showRun run) = showRun run := by
  have plain : ∀ c ∈ showRun run, ¬ isSpace c = true := by
    intro c member
    rcases mem_showRun member with digit | rfl
    · simp [isSpace_of_isDigit digit]
    · decide
  rw [trim, List.dropWhile_eq_self_iff.mpr fun some => plain _ (List.getElem_mem some),
    List.rdropWhile_eq_self_iff.mpr fun some => plain _ (List.getLast_mem some)]

theorem decimal_showNat : decimal (showNat m) = some m := by
  rw [decimal, if_pos ⟨showNat_ne_nil, List.all_eq_true.mpr fun c member => isDigit_showNat member⟩,
    digitsValue_showNat]

theorem minus_not_mem_showNat : '-' ∉ showNat m := fun member => absurd (isDigit_showNat member) (by decide)

/-- A run is read as its range. -/
theorem elementRange_showRun (positive : 0 ≤ run.1) (order : run.1 ≤ run.2) :
    elementRange (showRun run) = some (run.1.toNat, run.2.toNat) := by
  obtain ⟨first, last⟩ := run
  obtain ⟨m, rfl⟩ := Int.eq_ofNat_of_zero_le positive
  obtain ⟨n, rfl⟩ := Int.eq_ofNat_of_zero_le (positive.trans order)
  have text : showRun ((m : ℤ), (n : ℤ)) = if (m : ℤ) = n then showNat m else showNat m ++ '-' :: showNat n := rfl
  rw [elementRange, trim_showRun, text]
  rcases eq_or_ne (m : ℤ) n with same | other
  · rw [if_pos same, List.splitOn_eq_singleton minus_not_mem_showNat, ← same]
    dsimp only
    rw [decimal_showNat]
    rfl
  · rw [if_neg other, List.splitOn_append_cons_self_of_not_mem minus_not_mem_showNat,
      List.splitOn_eq_singleton minus_not_mem_showNat]
    dsimp only
    rw [decimal_showNat, decimal_showNat]
    rfl

/-- What is printed when no run has been started is no element. -/
theorem elementRange_showRun_neg : elementRange (showRun (z, -1)) = none := by
  have minus : ('-' :: ['1']).splitOn '-' = [[], ['1']] := by decide
  have text : showRun (z, -1) = if z = -1 then ['-', '1'] else showInt z ++ '-' :: '-' :: ['1'] := by
    unfold showRun
    split
    · rename_i same
      rw [same]
      rfl
    · rfl
  rw [elementRange, trim_showRun, text]
  cases z with
  | ofNat m =>
    have other : Int.ofNat m ≠ -1 := by
      change (m : ℤ) ≠ -1
      omega
    rw [if_neg other, show showInt (Int.ofNat m) = showNat m from rfl,
      List.splitOn_append_cons_self_of_not_mem minus_not_mem_showNat, minus]
  | negSucc m =>
    rcases eq_or_ne m 0 with rfl | other
    · decide
    · rw [if_neg (by omega), show showInt (Int.negSucc m) = '-' :: showNat (m + 1) from rfl, List.cons_append,
        ← List.nil_append ('-' :: _), List.splitOn_append_cons_self_of_not_mem List.not_mem_nil,
        List.splitOn_append_cons_self_of_not_mem minus_not_mem_showNat, minus]

/-- A text of runs is read as these runs. -/
theorem listElements_showRuns (some : runs ≠ []) : listElements (showRuns runs) = runs.map showRun := by
  rw [listElements, if_neg fun none => some (showRuns_eq_nil_iff.mp none), showRuns]
  apply List.splitOn_intercalate
  · intro e member
    obtain ⟨run, _, rfl⟩ := List.mem_map.mp member
    exact comma_not_mem_showRun
  · simpa using some

/-- The runs of a list that is not empty denote its numbers. -/
theorem readsAs_runsOf (some : numbers ≠ []) (ascending : numbers.Pairwise (· ≤ ·))
    (cpus : ∀ n ∈ numbers, 0 ≤ n ∧ IsInt n) : ReadsAs (showRuns (runsOf numbers)) numbers := by
  obtain ⟨number, rest, rfl⟩ := List.exists_cons_of_ne_nil some
  have start := cpus number List.mem_cons_self
  have ordered (run : ℤ × ℤ) (member : run ∈ runsOf (number :: rest)) : 0 ≤ run.1 ∧ run.1 ≤ run.2 :=
    mem_runsFrom (number, number) ascending ⟨start.1, le_rfl⟩ member
  have elements : listElements (showRuns (runsOf (number :: rest))) = (runsOf (number :: rest)).map showRun :=
    listElements_showRuns runsFrom_ne_nil
  constructor
  · intro e member
    rw [elements] at member
    obtain ⟨run, inside, rfl⟩ := List.mem_map.mp member
    obtain ⟨positive, order⟩ := ordered run inside
    rw [elementRange_showRun positive order]
    exact Option.some_ne_none _
  · intro n
    have covered : InRuns (runsOf (number :: rest)) n ↔ (number ≤ n ∧ n ≤ number) ∨ n ∈ rest :=
      inRuns_runsFrom (number, number) ascending ⟨start.1, le_rfl⟩ fun n member =>
        (cpus n (List.mem_cons_of_mem number member)).2
    have single : number ≤ n ∧ n ≤ number ↔ n = number := by omega
    rw [elements, List.mem_cons, ← single, ← covered]
    constructor
    · rintro ⟨run, inside, bounds⟩
      obtain ⟨positive, order⟩ := ordered run inside
      refine ⟨showRun run, List.mem_map_of_mem inside, _, elementRange_showRun positive order, ?_⟩
      dsimp only
      omega
    · rintro ⟨e, member, range, read, bounds⟩
      obtain ⟨run, inside, rfl⟩ := List.mem_map.mp member
      obtain ⟨positive, order⟩ := ordered run inside
      rw [elementRange_showRun positive order] at read
      obtain rfl := Option.some.inj read
      refine ⟨run, inside, ?_⟩
      dsimp only at bounds
      omega

end Reading

/-- The text for an unbanned IRQ denotes the numbers of its list exactly when the list is not empty. -/
theorem printAssignedObjectsString_readsAs (irq : UiIrq) (bounds : Bounds) (unbanned : irq.isBanned = false)
    (ascending : irq.assignedTo.Pairwise (· ≤ ·)) (cpus : ∀ n ∈ irq.assignedTo, 0 ≤ n ∧ IsInt n)
    (fits : ∀ buflen, (assignedObjectsString buflen irq.assignedTo bounds).2.length < 128) :
    (∃ text, (printAssignedObjectsString irq bounds).2 = some text ∧ ReadsAs text irq.assignedTo) ↔
      irq.assignedTo ≠ [] := by
  have printed : (printAssignedObjectsString irq bounds).2 = some (assignedObjectsString 128 irq.assignedTo bounds).2 := by
    rw [printAssignedObjectsString, unbanned]
    rfl
  rw [printed]
  constructor
  · rintro ⟨_, ⟨⟩, reads⟩ none
    rw [none] at fits reads
    have long := fits ((showRuns [(bounds.rbot, -1)]).length + 1)
    rw [assignedObjectsString_nil, Nat.add_sub_cancel, List.take_length] at long
    rw [assignedObjectsString_nil, List.take_of_length_le (by omega)] at reads
    have elements := listElements_showRuns (List.cons_ne_nil (bounds.rbot, -1) [])
    exact reads.formed (showRun (bounds.rbot, -1)) (by rw [elements]; exact List.mem_cons_self)
      elementRange_showRun_neg
  · intro some
    have text (buflen : ℕ) := assignedObjectsString_eq buflen bounds some ascending
      fun n member => (cpus n member).1
    have long := fits ((showRuns (runsOf irq.assignedTo)).length + 1)
    rw [text, Nat.add_sub_cancel, List.take_length] at long
    refine ⟨_, rfl, ?_⟩
    rw [text, List.take_of_length_le (by omega)]
    exact readsAs_runsOf some ascending cpus

theorem printAssignedObjectsString_readsAs_runs :
    (∃ text, (printAssignedObjectsString { vector := 24, assignedTo := [0, 1, 1, 2, 5] } { rbot := 7, rtop := 9 }).2 =
      some text ∧ ReadsAs text [0, 1, 1, 2, 5]) ↔ [(0 : ℤ), 1, 1, 2, 5] ≠ [] := by
  apply printAssignedObjectsString_readsAs { vector := 24, assignedTo := [0, 1, 1, 2, 5] } { rbot := 7, rtop := 9 } rfl
  · decide
  · decide
  · intro buflen
    dsimp only
    rw [assignedObjectsString_eq buflen _ (by decide) (by decide) (by decide)]
    exact (List.length_take_le' _ _).trans_lt (by decide)

/-- An IRQ that the user unbans has no list, and `0--1` is printed for it. -/
theorem printAssignedObjectsString_unbanned :
    toggleIrq [{ vector := 24, isBanned := true }] 0 = ([{ vector := 24 }], 0) ∧
      (∀ buflen, (assignedObjectsString buflen [] {}).2.length < 128) ∧
        (printAssignedObjectsString { vector := 24 } {}).2 = some "0--1".toList ∧
          ¬ ∃ text, (printAssignedObjectsString { vector := 24 } {}).2 = some text ∧ ReadsAs text [] := by
  have printed : (printAssignedObjectsString { vector := 24 } {}).2 = some "0--1".toList := by decide
  refine ⟨rfl, ?_, printed, ?_⟩
  · intro buflen
    rw [assignedObjectsString_nil]
    exact (List.length_take_le' _ _).trans_lt (by decide)
  · rintro ⟨text, same, reads⟩
    obtain rfl := Option.some.inj (printed.symm.trans same)
    exact reads.formed "0--1".toList (by decide) (by decide)

end Irqbalance
