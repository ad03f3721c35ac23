import Mathlib.Data.List.Basic
import Mathlib.Data.List.TakeWhile
import Mathlib.Algebra.Order.Ring.Nat
import Mathlib.Algebra.Ring.Int.Defs

/-! # Text as C programs print and scan it

Decimal numbers as `%d` prints and `strtol` reads them, tokens as `strtok` cuts them, and texts in
buffers of fixed size. A text is the list of its characters, without the terminating NUL. What is
printed is scanned back, and a text built of words and blanks has these words as its tokens.
-/

namespace CText

/-- `isspace` in the C locale. -/
def isSpace (c : Char) : Bool := c == ' ' || decide ('\t' ≤ c ∧ c ≤ '\r')

/-- `isblank` in the C locale. -/
def isBlank (c : Char) : Bool := c == ' ' || c == '\t'

/-- What `strlen` measures: the characters before the first NUL. -/
def cString (s : List Char) : List Char := s.takeWhile (· != '\x00')

/-- `%lu`. -/
def showNat (n : ℕ) : List Char := Nat.toDigits 10 n

/-- `%d`. -/
def showInt : ℤ → List Char
  | .ofNat n => showNat n
  | .negSucc n => '-' :: showNat (n + 1)

/-- The value of a string of digits. -/
def digitsValue (s : List Char) : ℕ := Nat.ofDigitChars 10 s 0

/-- An optional sign. -/
def takeSign : List Char → Bool × List Char
  | '-' :: rest => (true, rest)
  | '+' :: rest => (false, rest)
  | s => (false, s)

/-- The number that `strtol` and `strtoul` find: sign, magnitude and the text behind it. -/
def scanNumber (s : List Char) : Option (Bool × ℕ × List Char) :=
  let (negative, rest) := takeSign (s.dropWhile isSpace)
  let digits := rest.takeWhile Char.isDigit
  if digits.isEmpty then none
  else some (negative, digitsValue digits, rest.dropWhile Char.isDigit)

/-- `strtol(s, NULL, 10)` for a 64-bit `long`. -/
def strtol (s : List Char) : ℤ :=
  match scanNumber s with
  | none => 0
  | some (false, n, _) => min n (2 ^ 63 - 1)
  | some (true, n, _) => max (-n) (-2 ^ 63)

/-- `strtoul(s, &end, 10)` for a 64-bit `unsigned long`, with the text at `end`. -/
def strtoul (s : List Char) : ℕ × List Char :=
  match scanNumber s with
  | none => (0, s)
  | some (negative, n, rest) =>
    (if 2 ^ 64 ≤ n then 2 ^ 64 - 1 else if negative then (2 ^ 64 - n) % 2 ^ 64 else n, rest)

/-- Conversion to a 32-bit `int`. -/
def toInt (n : ℤ) : ℤ := Int.bmod n (2 ^ 32)

/-- The values of an `int`. -/
def IsInt (n : ℤ) : Prop := -2 ^ 31 ≤ n ∧ n < 2 ^ 31

instance (n : ℤ) : Decidable (IsInt n) := inferInstanceAs (Decidable (_ ∧ _))

/-- What `strtok` with the delimiter `' '` returns, called until it returns `NULL`. -/
def tokens (s : List Char) : List (List Char) := (s.splitOn ' ').filter fun t => !t.isEmpty

/-- What `getline` returns until the end of the file: the lines with their newlines. -/
def getLines (s : List Char) : List (List Char) :=
  let pieces := s.splitOn '\n'
  pieces.dropLast.map (· ++ ['\n']) ++ pieces.getLast?.toList.filter fun l => !l.isEmpty

/-- Words with a blank behind each. -/
def spaced (words : List (List Char)) : List Char := words.flatMap fun w => w ++ [' ']

/-- `snprintf(buf + strlen(buf), size - strlen(buf), "%s", t)`. -/
def appendBounded (size : ℕ) (buf t : List Char) : List Char := (buf ++ t).take (size - 1)

/-- `strncpy(buf + strlen(buf), t, size - strlen(buf))`; without a NUL in the buffer, what it holds
as a string is undefined. -/
def appendCopy (size : ℕ) (buf t : List Char) : Option (List Char) :=
  if (buf ++ t).length < size then some (buf ++ t) else none

section Pieces

variable {sep c : Char} {s e : List Char}

/-- The pieces of a text consist of its characters other than the separator. -/
theorem mem_of_mem_splitOn (piece : e ∈ s.splitOn sep) (member : c ∈ e) : c ∈ s ∧ c ≠ sep := by
  induction s generalizing e with
  | nil =>
    rw [List.splitOn_nil, List.mem_singleton] at piece
    subst piece
    contradiction
  | cons x s ih =>
    have tail {e : List Char} (piece : e ∈ s.splitOn sep) (member : c ∈ e) : c ∈ x :: s ∧ c ≠ sep :=
      ⟨List.mem_cons_of_mem x (ih piece member).1, (ih piece member).2⟩
    rw [List.splitOn_cons_eq_if_modifyHead] at piece
    split at piece
    · rcases List.mem_cons.mp piece with rfl | later
      · contradiction
      · exact tail later member
    · rename_i other
      cases pieces : s.splitOn sep with
      | nil => exact absurd pieces (List.splitOn_ne_nil sep s)
      | cons first rest =>
        rw [pieces, List.modifyHead_cons] at piece
        rcases List.mem_cons.mp piece with rfl | later
        · rcases List.mem_cons.mp member with rfl | inside
          · exact ⟨List.mem_cons_self, by simpa using other⟩
          · exact tail (pieces ▸ List.mem_cons_self) inside
        · exact tail (pieces ▸ List.mem_cons_of_mem first later) member

theorem length_flatten_splitOn_le : (s.splitOn sep).flatten.length ≤ s.length := by
  induction s with
  | nil =>
    rw [List.splitOn_nil]
    exact le_rfl
  | cons x s ih =>
    rw [List.splitOn_cons_eq_if_modifyHead]
    split
    · exact Nat.le_succ_of_le ih
    · cases pieces : s.splitOn sep with
      | nil => exact absurd pieces (List.splitOn_ne_nil sep s)
      | cons first rest =>
        rw [pieces] at ih
        exact Nat.succ_le_succ ih

/-- Lines that end with a newline each are what `getline` returns. -/
theorem getLines_flatMap {lines : List (List Char)} (one : ∀ l ∈ lines, '\n' ∉ l) :
    getLines (lines.flatMap (· ++ ['\n'])) = lines.map (· ++ ['\n']) := by
  have pieces : (lines.flatMap (· ++ ['\n'])).splitOn '\n' = lines ++ [[]] := by
    induction lines with
    | nil => exact List.splitOn_nil '\n'
    | cons l rest ih =>
      have tail := ih fun l' member => one l' (List.mem_cons_of_mem l member)
      rw [List.flatMap_cons, List.append_assoc, List.singleton_append,
        List.splitOn_append_cons_self_of_not_mem (one l List.mem_cons_self), tail, List.cons_append]
  rw [getLines, pieces]
  simp

/-- A list with a separator between its texts, from the back. -/
theorem intercalate_append_singleton {texts : List (List Char)} :
    [sep].intercalate (texts ++ [e]) = texts.flatMap (· ++ [sep]) ++ e := by
  induction texts with
  | nil => exact List.intercalate_singleton
  | cons t texts ih =>
    rw [List.cons_append, List.intercalate_cons_of_ne_nil (by simp), ih]
    simp

/-- A separator behind the last text. -/
theorem intercalate_append_sep {texts : List (List Char)} (some : texts ≠ []) :
    [sep].intercalate texts ++ [sep] = texts.flatMap (· ++ [sep]) := by
  obtain ⟨front, last, rfl⟩ := (List.eq_nil_or_concat texts).resolve_left some
  rw [List.concat_eq_append, intercalate_append_singleton]
  simp

/-- Characters are taken from the first text first. -/
theorem take_intercalate {texts : List (List Char)} {n : ℕ} (few : n ≤ e.length) :
    ([sep].intercalate (e :: texts)).take n = e.take n := by
  cases texts with
  | nil => rw [List.intercalate_singleton]
  | cons text texts =>
    rw [List.intercalate_cons_cons, List.append_assoc, List.take_append_of_le_length few]

theorem drop_intercalate {texts : List (List Char)} {n : ℕ} (few : n ≤ e.length) :
    ([sep].intercalate (e :: texts)).drop n = [sep].intercalate (e.drop n :: texts) := by
  cases texts with
  | nil => rw [List.intercalate_singleton, List.intercalate_singleton]
  | cons text texts =>
    rw [List.intercalate_cons_cons, List.intercalate_cons_cons, List.append_assoc,
      List.drop_append_of_le_length few, List.append_assoc]

theorem nul_not_mem_cString : '\x00' ∉ cString s := fun member => by
  simpa using List.mem_takeWhile_imp member

/-- A text without NUL is a string as a whole. -/
theorem cString_eq_self (nul : '\x00' ∉ s) : cString s = s := by
  rw [cString, List.takeWhile_eq_self_iff]
  intro c member
  simpa using fun same : c = '\x00' => nul (same ▸ member)

end Pieces

section Tokens

/-- A word: not empty and free of blanks. -/
def Word (w : List Char) : Prop := w ≠ [] ∧ ' ' ∉ w

instance (w : List Char) : Decidable (Word w) := inferInstanceAs (Decidable (_ ∧ _))

theorem tokens_word {w : List Char} (word : Word w) (rest : List Char) :
    tokens (w ++ ' ' :: rest) = w :: tokens rest := by
  rw [tokens, List.splitOn_append_cons_self_of_not_mem word.2,
    List.filter_cons_of_pos (by simpa using word.1), tokens]

/-- Words with blanks behind them are the tokens of their text. -/
theorem tokens_spaced {words : List (List Char)} (each : ∀ w ∈ words, Word w) (rest : List Char) :
    tokens (spaced words ++ rest) = words ++ tokens rest := by
  induction words with
  | nil => rfl
  | cons w words ih =>
    have head := tokens_word (each w List.mem_cons_self) (spaced words ++ rest)
    rw [ih fun v member => each v (List.mem_cons_of_mem w member)] at head
    simpa [spaced] using head

theorem tokens_nil : tokens [] = [] := rfl

theorem tokens_last {w : List Char} (word : Word w) : tokens w = [w] := by
  rw [tokens, List.splitOn_eq_singleton word.2, List.filter_cons_of_pos (by simpa using word.1),
    List.filter_nil]

/-- There is at least one character for each token. -/
theorem length_tokens_le {s : List Char} : (tokens s).length ≤ s.length := by
  have filled (l : List (List Char)) : (l.filter fun t => !t.isEmpty).length ≤ l.flatten.length := by
    induction l with
    | nil => exact le_rfl
    | cons t l ih =>
      rw [List.flatten_cons, List.length_append]
      cases t with
      | nil => simpa using ih
      | cons x t =>
        rw [List.filter_cons_of_pos rfl, List.length_cons, List.length_cons]
        omega
  exact (filled _).trans length_flatten_splitOn_le

theorem length_le_of_mem_tokens {s t : List Char} (token : t ∈ tokens s) : t.length ≤ s.length := by
  have piece : t ∈ s.splitOn ' ' := (List.mem_filter.mp token).1
  exact (List.sublist_flatten_of_mem piece).length_le.trans length_flatten_splitOn_le

theorem spaced_append (first second : List (List Char)) :
    spaced (first ++ second) = spaced first ++ spaced second := List.flatMap_append

end Tokens

section Numbers

variable {n : ℕ} {z : ℤ} {s rest : List Char}

/-- The text goes on with something that is no digit. -/
def Ends (rest : List Char) : Prop := ∀ c ∈ rest.head?, c.isDigit = false

theorem isDigit_showNat {c : Char} (member : c ∈ showNat n) : c.isDigit = true :=
  Nat.isDigit_of_mem_toDigits (by decide) (by decide) member

theorem showNat_ne_nil : showNat n ≠ [] := Nat.toDigits_ne_nil

theorem digitsValue_showNat : digitsValue (showNat n) = n := Nat.ofDigitChars_ten_toDigits

theorem word_showNat : Word (showNat n) :=
  ⟨showNat_ne_nil, fun member => absurd (isDigit_showNat member) (by decide)⟩

theorem word_showInt : Word (showInt z) := by
  cases z with
  | ofNat n => exact word_showNat
  | negSucc n =>
    refine ⟨List.cons_ne_nil _ _, fun member => ?_⟩
    rcases List.mem_cons.mp member with minus | digit
    · contradiction
    · exact word_showNat.2 digit

theorem isSpace_of_isDigit {c : Char} (digit : c.isDigit = true) : isSpace c = false := by
  have low : 48 ≤ c.val.toNat := by
    have bounds : 48 ≤ c.val ∧ c.val ≤ 57 := by simpa [Char.isDigit] using digit
    exact UInt32.le_iff_toNat_le.mp bounds.1
  have blank : c ≠ ' ' := by
    rintro rfl
    exact absurd digit (by decide)
  have above : ¬ c ≤ '\r' := fun below => by
    have last : c.val.toNat ≤ 13 := UInt32.le_iff_toNat_le.mp below
    omega
  simp [isSpace, blank, above]

/-- A string of digits has a first one. -/
theorem showNat_cons : ∃ c digits, showNat n = c :: digits ∧ c.isDigit = true := by
  cases shown : showNat n with
  | nil => exact absurd shown showNat_ne_nil
  | cons c digits => exact ⟨c, digits, rfl, isDigit_showNat (shown ▸ List.mem_cons_self)⟩

/-- A printed number starts with no letter. -/
theorem isPrefixOf_showInt {letter : Char} {w : List Char} (other : letter.isDigit = false) (unsigned : letter ≠ '-')
    (rest : List Char) : (letter :: w).isPrefixOf (showInt z ++ rest) = false := by
  cases z with
  | ofNat n =>
    obtain ⟨d, digits, shown, digit⟩ := showNat_cons (n := n)
    have apart : letter ≠ d := by
      rintro rfl
      rw [digit] at other
      contradiction
    rw [showInt, shown]
    show (letter == d && _) = false
    rw [beq_eq_false_iff_ne.mpr apart, Bool.false_and]
  | negSucc n =>
    show (letter == '-' && _) = false
    rw [beq_eq_false_iff_ne.mpr unsigned, Bool.false_and]

theorem takeWhile_digits (digits : ∀ c ∈ s, c.isDigit = true) (ends : Ends rest) :
    (s ++ rest).takeWhile Char.isDigit = s := by
  rw [List.takeWhile_append_of_pos digits]
  cases rest with
  | nil => simp
  | cons c rest =>
    have stop : c.isDigit = false := ends c rfl
    rw [List.takeWhile_cons_of_neg (by simp [stop]), List.append_nil]

theorem dropWhile_digits (digits : ∀ c ∈ s, c.isDigit = true) (ends : Ends rest) :
    (s ++ rest).dropWhile Char.isDigit = rest := by
  rw [List.dropWhile_append_of_pos digits]
  cases rest with
  | nil => rfl
  | cons c rest =>
    have stop : c.isDigit = false := ends c rfl
    rw [List.dropWhile_cons_of_neg (by simp [stop])]

/-- Blanks in front of a number are skipped. -/
theorem scanNumber_blank : scanNumber (' ' :: s) = scanNumber s := by
  have skip : (' ' :: s).dropWhile isSpace = s.dropWhile isSpace :=
    List.dropWhile_cons_of_pos (by decide)
  rw [scanNumber, skip, scanNumber]

/-- A printed number is found with its sign, and the text behind it is left. -/
theorem scanNumber_showInt (ends : Ends rest) :
    scanNumber (showInt z ++ rest) = some (decide (z < 0), z.natAbs, rest) := by
  have found (m : ℕ) (negative : Bool) : (if ((showNat m ++ rest).takeWhile Char.isDigit).isEmpty then none
      else some (negative, digitsValue ((showNat m ++ rest).takeWhile Char.isDigit),
        (showNat m ++ rest).dropWhile Char.isDigit)) = some (negative, m, rest) := by
    rw [takeWhile_digits (fun _ => isDigit_showNat) ends, dropWhile_digits (fun _ => isDigit_showNat) ends,
      digitsValue_showNat, if_neg (by simpa using showNat_ne_nil)]
  cases z with
  | ofNat m =>
    obtain ⟨c, digits, shown, digit⟩ := showNat_cons (n := m)
    have skip : (showNat m ++ rest).dropWhile isSpace = showNat m ++ rest := by
      rw [shown, List.cons_append, List.dropWhile_cons_of_neg (by simp [isSpace_of_isDigit digit])]
    have sign : takeSign (showNat m ++ rest) = (false, showNat m ++ rest) := by
      rw [shown, List.cons_append]
      unfold takeSign
      split
      · rename_i same
        rw [(List.cons.inj same).1] at digit
        contradiction
      · rename_i same
        rw [(List.cons.inj same).1] at digit
        contradiction
      · rfl
    simp only [scanNumber, showInt, skip, sign, found]
    rfl
  | negSucc m =>
    have skip : ('-' :: (showNat (m + 1) ++ rest)).dropWhile isSpace = '-' :: (showNat (m + 1) ++ rest) :=
      List.dropWhile_cons_of_neg (by decide)
    simp only [scanNumber, showInt, List.cons_append, skip, takeSign, found, Int.negSucc_lt_zero,
      decide_true, Int.natAbs_negSucc]

/-- White space in front of a number is skipped. -/
theorem scanNumber_spaces {blanks : List Char} (spaces : ∀ c ∈ blanks, isSpace c = true) :
    scanNumber (blanks ++ s) = scanNumber s := by
  rw [scanNumber, scanNumber, List.dropWhile_append_of_pos spaces]

theorem isSpace_of_isBlank {c : Char} (blank : isBlank c = true) : isSpace c = true := by
  rcases Bool.or_eq_true_iff.mp blank with space | tab
  · rw [beq_iff_eq.mp space]
    decide
  · rw [beq_iff_eq.mp tab]
    decide

theorem isBlank_of_isDigit {c : Char} (digit : c.isDigit = true) : isBlank c = false := by
  have other := isSpace_of_isDigit digit
  by_contra blank
  rw [isSpace_of_isBlank (Bool.not_eq_false _ ▸ blank)] at other
  contradiction

/-- A number behind blanks is read up to the next character that is no digit, the largest ones as
`ULONG_MAX`. -/
theorem strtoul_showNat {blanks : List Char} (spaces : ∀ c ∈ blanks, isBlank c = true) (ends : Ends rest) :
    strtoul (blanks ++ (showNat n ++ rest)) = (min n (2 ^ 64 - 1), rest) := by
  have scanned := scanNumber_showInt (z := n) ends
  have positive : decide ((n : ℤ) < 0) = false := decide_eq_false (by omega)
  rw [positive] at scanned
  rw [strtoul, scanNumber_spaces fun c member => isSpace_of_isBlank (spaces c member),
    show scanNumber (showNat n ++ rest) = some (false, n, rest) from scanned]
  simp only [Bool.false_eq_true, if_false]
  congr 1
  split <;> omega

/-- `strtoul` leaves a part of the text. -/
theorem strtoul_length_le : (strtoul s).2.length ≤ s.length := by
  have sign (l : List Char) : (takeSign l).2.length ≤ l.length := by
    unfold takeSign
    split <;> simp
  have left : ((takeSign (s.dropWhile isSpace)).2.dropWhile Char.isDigit).length ≤ s.length :=
    (List.length_dropWhile_le _ _).trans ((sign _).trans (List.length_dropWhile_le _ _))
  rw [strtoul, scanNumber]
  dsimp only
  by_cases none : ((takeSign (s.dropWhile isSpace)).2.takeWhile Char.isDigit).isEmpty = true
  · rw [if_pos none]
  · rw [if_neg none]
    exact left

theorem toInt_of_isInt (range : IsInt z) : toInt z = z := by
  obtain ⟨low, high⟩ := range
  exact Int.bmod_eq_of_le (by omega) (by omega)

theorem isInt_toInt (n : ℤ) : IsInt (toInt n) := by
  have low := Int.le_bmod (x := n) (m := 2 ^ 32) (by decide)
  have high := Int.bmod_lt (x := n) (m := 2 ^ 32) (by decide)
  exact ⟨low, high⟩

theorem ends_nil : Ends [] := nofun

theorem ends_blank : Ends (' ' :: rest) := by
  intro c head
  obtain rfl := Option.some.inj head
  decide

/-- `strtol` reads back what `%d` and `%lu` print, if a `long` can hold it. -/
theorem strtol_showInt (low : -2 ^ 63 ≤ z) (high : z < 2 ^ 63) : strtol (showInt z) = z := by
  have scanned := scanNumber_showInt (z := z) ends_nil
  rw [List.append_nil] at scanned
  rw [strtol, scanned]
  by_cases negative : z < 0
  · simp only [negative, decide_true]
    omega
  · simp only [negative, decide_false]
    omega

theorem scanNumber_showNat : scanNumber (showNat n) = some (false, n, []) := by
  have scanned := scanNumber_showInt (z := n) ends_nil
  rw [List.append_nil, decide_eq_false (by omega)] at scanned
  exact scanned

/-- A number that a `long` cannot hold is read as the largest one. -/
theorem strtol_showNat : strtol (showNat n) = min n (2 ^ 63 - 1) := by
  rw [strtol, scanNumber_showNat]
  dsimp only
  omega

theorem toInt_strtol_showInt (range : IsInt z) : toInt (strtol (showInt z)) = z := by
  obtain ⟨low, high⟩ := range
  rw [strtol_showInt (by omega) (by omega), toInt_of_isInt ⟨low, high⟩]

/-- `strtoul` reads back what `%d` prints, after conversion to `int`. -/
theorem strtoul_showInt (range : IsInt z) (ends : Ends rest) :
    toInt (strtoul (showInt z ++ rest)).1 = z ∧ (strtoul (showInt z ++ rest)).2 = rest := by
  obtain ⟨low, high⟩ := range
  rw [strtoul, scanNumber_showInt ends]
  refine ⟨?_, rfl⟩
  have bound : ¬ 2 ^ 64 ≤ z.natAbs := by omega
  simp only [bound, if_false]
  by_cases negative : z < 0
  · simp only [negative, decide_true, if_true]
    have value : ((2 ^ 64 - z.natAbs) % 2 ^ 64 : ℕ) = (z + 2 ^ 64 : ℤ) := by omega
    have shift : z + 2 ^ 64 = ((2 ^ 32 : ℕ) : ℤ) * 2 ^ 32 + z := by omega
    rw [value, toInt, shift, Int.mul_add_bmod_self_left]
    exact toInt_of_isInt ⟨low, high⟩
  · simp only [negative, decide_false, Bool.false_eq_true, if_false]
    rw [show (z.natAbs : ℤ) = z by omega]
    exact toInt_of_isInt ⟨low, high⟩

theorem strtoul_blank (found : scanNumber s ≠ none) : strtoul (' ' :: s) = strtoul s := by
  cases scanned : scanNumber s with
  | none => exact absurd scanned found
  | some number => simp only [strtoul, scanNumber_blank, scanned]

end Numbers

section Buffers

variable {size : ℕ} {buf t : List Char}

theorem take_append_take {n : ℕ} : (buf.take n ++ t).take n = (buf ++ t).take n := by
  rcases Nat.le_total buf.length n with short | long
  · rw [List.take_of_length_le short]
  · have full : (buf.take n).length = n := List.length_take_of_le long
    rw [List.take_append_of_le_length (Nat.le_of_eq full.symm), List.take_append_of_le_length long, List.take_take,
      Nat.min_self]

/-- Texts appended to a buffer one after another are cut where the buffer is full. -/
theorem foldl_appendBounded {α : Type*} (size : ℕ) (buf : List Char) (wanted : α → Bool) (text : α → List Char) (items : List α)
    (fits : buf.length ≤ size - 1) :
    items.foldl (fun buf x => if wanted x then appendBounded size buf (text x) else buf) buf =
      (buf ++ (items.filter wanted).flatMap text).take (size - 1) := by
  have step (l : List Char) : items.foldl
      (fun buf x => if wanted x then appendBounded size buf (text x) else buf) (l.take (size - 1)) =
        (l ++ (items.filter wanted).flatMap text).take (size - 1) := by
    induction items generalizing l with
    | nil => simp
    | cons x items ih =>
      rw [List.foldl_cons]
      by_cases selected : wanted x
      · rw [if_pos selected, appendBounded, take_append_take, ih, List.filter_cons_of_pos selected,
          List.flatMap_cons, List.append_assoc]
      · rw [if_neg selected, ih, List.filter_cons_of_neg selected]
  have start := step buf
  rwa [List.take_of_length_le fits] at start

/-- A closing text fits behind a buffer exactly when the buffer was not cut and leaves room. -/
theorem appendCopy_take (some_text : t ≠ []) : appendCopy size (buf.take (size - 1)) t =
    if buf.length + t.length < size then some (buf ++ t) else none := by
  have positive := List.length_pos_iff.mpr some_text
  unfold appendCopy
  by_cases fits : buf.length + t.length < size
  · rw [List.take_of_length_le (by omega), List.length_append, if_pos fits]
  · rw [if_neg fits, if_neg]
    rw [List.length_append, List.length_take]
    omega

end Buffers

end CText
