import Irqbalance.Model.Bitmap
import Mathlib.Data.Nat.Bitwise
import Mathlib.Tactic.Ring

/-! # The hex mask parser

What `__bitmap_parse` accepts, against the grammar that its comment gives: chunks of hex digits with
commas between them and blanks around them. The scan keeps the complete chunks, the digits of the
current one, and the mask of what is complete. A blank inside the text and a comma at its end are
accepted too.
-/

namespace Irqbalance

open CText

section Grammar

variable {chunks : List (List Char)} {text buf : List Char}

/-- The number that hex digits denote. -/
def hexValue (digits : List Char) : ℕ := digits.foldl (fun v c => v * 16 + unhex c) 0

/-- The number that chunks of 32 bits denote, the highest first. -/
def chunksValue (chunks : List (List Char)) : ℕ := chunks.foldl (fun v chunk => v * 2 ^ CHUNKSZ + hexValue chunk) 0

def Spaces (s : List Char) : Prop := ∀ c ∈ s, isSpace c = true

def HexDigits (s : List Char) : Prop := ∀ c ∈ s, isXDigit c = true

/-- Chunks with commas between them and spaces around them. -/
structure HexText (text : List Char) (chunks : List (List Char)) : Prop where
  some : chunks ≠ []
  digits : ∀ chunk ∈ chunks, chunk ≠ [] ∧ HexDigits chunk
  spelled : ∃ front back, Spaces front ∧ Spaces back ∧ text = front ++ [','].intercalate chunks ++ back

/-- Each chunk has 32 bits, and all of them fit the mask. -/
def Fits (chunks : List (List Char)) : Prop :=
  (∀ chunk ∈ chunks, hexValue chunk < 2 ^ CHUNKSZ) ∧ chunksValue chunks < 2 ^ NR_CPUS

/-- The value is too large, whatever follows. -/
def Oversized (text : List Char) : Prop := ∃ start chunks, start <+: text ∧ HexText start chunks ∧ ¬ Fits chunks

/-- What the comment of `__bitmap_parse` promises of its result. -/
structure DocumentedParse (text : List Char) (parsed : Parsed) : Prop where
  accepted : parsed.2 = none ↔ ∃ chunks, HexText text chunks ∧ Fits chunks
  value : ∀ chunks, HexText text chunks → Fits chunks → parsed.1 = BitVec.ofNat NR_CPUS (chunksValue chunks)
  invalid : parsed.2 = some .EINVAL → ¬ ∃ chunks, HexText text chunks
  overflow : parsed.2 = some .EOVERFLOW → Oversized text
  range : parsed.2 ≠ some .ERANGE

/-- Complete chunks with a comma behind each, and the digits of another one. -/
def spell (complete : List (List Char)) (current : List Char) : List Char :=
  complete.flatMap (· ++ [',']) ++ current

/-- Chunks of digits, all but the last of which are complete. -/
structure Spelled (complete : List (List Char)) (current : List Char) : Prop where
  chunks : ∀ chunk ∈ complete, chunk ≠ [] ∧ HexDigits chunk
  digits : HexDigits current

/-- Chunks that the scan gets through. -/
structure Readable (complete : List (List Char)) (current : List Char) : Prop extends Spelled complete current where
  fits : Fits complete
  small : hexValue current < 2 ^ CHUNKSZ

/-- Something behind a space that is behind something else. -/
def EmbeddedSpace (text : List Char) : Prop :=
  ∃ front complete current gap c rest, Spaces front ∧ Readable complete current ∧ spell complete current ≠ [] ∧
    Spaces gap ∧ gap ≠ [] ∧ isSpace c = false ∧ text = front ++ spell complete current ++ gap ++ c :: rest

/-- The buffer ends behind a comma. -/
def TrailingComma (buf : List Char) : Prop :=
  ∃ front complete, Spaces front ∧ Readable complete [] ∧ complete ≠ [] ∧ buf = front ++ spell complete []

end Grammar

section Values

variable {complete : List (List Char)} {chunk current : List Char} {c : Char} {n v m : ℕ}

@[simp] theorem hexValue_append_singleton : hexValue (current ++ [c]) = hexValue current * 16 + unhex c := by
  rw [hexValue, List.foldl_append]
  rfl

@[simp] theorem chunksValue_append_singleton :
    chunksValue (complete ++ [chunk]) = chunksValue complete * 2 ^ CHUNKSZ + hexValue chunk := by
  rw [chunksValue, List.foldl_append]
  rfl

/-- What holds of the hex digits in ASCII holds of all that `isxdigit` accepts. -/
theorem isXDigit_forall {P : Char → Prop} (each : ∀ n < 128, isXDigit (Char.ofNat n) = true → P (Char.ofNat n))
    (digit : isXDigit c = true) : P c := by
  have ascii : c.toNat < 128 := by
    simp only [isXDigit, Char.isDigit, Bool.or_eq_true, decide_eq_true_eq, Char.le_def, Bool.and_eq_true] at digit
    rcases digit with (⟨_, high⟩ | ⟨_, high⟩) | ⟨_, high⟩
    · exact (UInt32.le_iff_toNat_le.mp high).trans_lt (by decide)
    · exact (UInt32.le_iff_toNat_le.mp high).trans_lt (by decide)
    · exact (UInt32.le_iff_toNat_le.mp high).trans_lt (by decide)
  have whole := each c.toNat ascii
  rw [Char.ofNat_toNat] at whole
  exact whole digit

theorem unhex_lt (digit : isXDigit c = true) : unhex c < 16 :=
  isXDigit_forall (P := fun c => unhex c < 16) (by decide) digit

theorem isSpace_of_isXDigit (digit : isXDigit c = true) : isSpace c = false :=
  isXDigit_forall (P := fun c => isSpace c = false) (by decide) digit

theorem HexDigits.append_singleton (hex : HexDigits current) (digit : isXDigit c = true) :
    HexDigits (current ++ [c]) := by
  intro d member
  rcases List.mem_append.mp member with old | new
  · exact hex d old
  · rw [List.mem_singleton.mp new]
    exact digit

theorem ne_of_isXDigit (digit : isXDigit c = true) : c ≠ '\x00' ∧ c ≠ ',' := by
  constructor
  · rintro rfl
    contradiction
  · rintro rfl
    contradiction

theorem fls_le_iff : fls v ≤ n ↔ v < 2 ^ n := by
  unfold fls
  split
  · rename_i zero
    subst zero
    simp
  · rename_i positive
    rw [Nat.add_one_le_iff, Nat.log2_lt positive]

/-- A chunk behind a number that is not zero makes it longer by its bits. -/
theorem fls_chunk (positive : v ≠ 0) (small : m < 2 ^ n) : fls (v * 2 ^ n + m) = fls v + n := by
  have above (k : ℕ) : v * 2 ^ n + m < 2 ^ (k + n) ↔ v < 2 ^ k := by
    rw [pow_add]
    constructor
    · intro bound
      by_contra large
      exact absurd (Nat.mul_le_mul_right (2 ^ n) (not_lt.mp large)) (by omega)
    · intro bound
      have next : (v + 1) * 2 ^ n ≤ 2 ^ k * 2 ^ n := Nat.mul_le_mul_right _ bound
      rw [Nat.succ_mul] at next
      omega
  apply le_antisymm
  · exact fls_le_iff.mpr ((above _).mpr (fls_le_iff.mp le_rfl))
  · have long : n ≤ fls (v * 2 ^ n + m) := by
      by_contra short
      have bound := fls_le_iff.mp (Nat.le_of_lt_succ (not_le.mp short |>.trans (Nat.lt_succ_self _)))
      have whole : 2 ^ n ≤ v * 2 ^ n := Nat.le_mul_of_pos_left _ (Nat.pos_of_ne_zero positive)
      omega
    obtain ⟨k, split⟩ := Nat.exists_eq_add_of_le' long
    rw [split, Nat.add_le_add_iff_right, fls_le_iff, ← above, ← split]
    exact fls_le_iff.mp le_rfl

/-- A chunk that is shifted in. -/
theorem shiftLeft_or_ofNat (small : m < 2 ^ n) :
    BitVec.ofNat NR_CPUS v <<< n ||| BitVec.ofNat NR_CPUS m = BitVec.ofNat NR_CPUS (v * 2 ^ n + m) := by
  have shifted : BitVec.ofNat NR_CPUS v <<< n = BitVec.ofNat NR_CPUS (v <<< n) := by
    apply BitVec.eq_of_toNat_eq
    rw [BitVec.toNat_shiftLeft, BitVec.toNat_ofNat, BitVec.toNat_ofNat, Nat.shiftLeft_eq, Nat.shiftLeft_eq,
      Nat.mod_mul_mod]
  rw [shifted, ← BitVec.ofNat_or, ← Nat.shiftLeft_add_eq_or_of_lt small, Nat.shiftLeft_eq]

end Values

/-- The scan behind complete chunks and the digits of another one. -/
structure Scanned (complete : List (List Char)) (current : List Char) (st : HexState) (mask : CpuMask) : Prop where
  readable : Readable complete current
  mask : mask = BitVec.ofNat NR_CPUS (chunksValue complete)
  chunk : st.chunk = hexValue current
  ndigits : st.ndigits = 0 ↔ current = []
  totaldigits : st.totaldigits = 0 ↔ spell complete current = []
  nchunks : st.nchunks = 0 ↔ chunksValue complete = 0
  nbits : st.nbits = fls (chunksValue complete)
  last : st.totaldigits = 0 ∨ isSpace st.c = false

/-- The value of the end of a chunk as a result. -/
def finish (st : HexState) (mask : CpuMask) : Parsed :=
  match endChunk st mask with
  | (mask, .error e) => (mask, some e)
  | (mask, .ok _) => (mask, none)

section Steps

variable {complete : List (List Char)} {current buf : List Char} {st : HexState} {mask : CpuMask} {c : Char}

theorem scanned_start : Scanned [] [] {} CPU_MASK_NONE where
  readable :=
    { chunks := fun _ member => absurd member List.not_mem_nil
      digits := fun _ member => absurd member List.not_mem_nil
      fits := ⟨fun _ member => absurd member List.not_mem_nil, Nat.two_pow_pos NR_CPUS⟩
      small := Nat.two_pow_pos CHUNKSZ }
  mask := rfl
  chunk := rfl
  ndigits := by simp
  totaldigits := by simp [spell]
  nchunks := by simp [chunksValue]
  nbits := rfl
  last := .inl rfl

/-- The current chunk is complete. -/
theorem Readable.next (readable : Readable complete current) (filled : current ≠ [])
    (fits : chunksValue (complete ++ [current]) < 2 ^ NR_CPUS) : Readable (complete ++ [current]) [] where
  chunks chunk member := by
    rcases List.mem_append.mp member with old | new
    · exact readable.chunks chunk old
    · rw [List.mem_singleton.mp new]
      exact ⟨filled, readable.digits⟩
  digits _ member := absurd member List.not_mem_nil
  fits := by
    constructor
    · intro chunk member
      rcases List.mem_append.mp member with old | new
      · exact readable.fits.1 chunk old
      · rw [List.mem_singleton.mp new]
        exact readable.small
    · exact fits
  small := Nat.two_pow_pos CHUNKSZ

/-- The number of bits behind the current chunk. -/
theorem Scanned.nbits_next (scanned : Scanned complete current st mask) :
    st.nbits + (if st.nchunks = 0 then fls st.chunk else CHUNKSZ) = fls (chunksValue (complete ++ [current])) := by
  rw [chunksValue_append_singleton, scanned.nbits]
  split
  · rename_i first
    have zero := scanned.nchunks.mp first
    rw [zero, Nat.zero_mul, Nat.zero_add, scanned.chunk]
    exact Nat.zero_add _
  · rename_i later
    have positive : chunksValue complete ≠ 0 := fun zero => later (scanned.nchunks.mpr zero)
    exact (fls_chunk positive scanned.readable.small).symm

/-- The mask behind the current chunk. -/
theorem Scanned.mask_next (scanned : Scanned complete current st mask) :
    mask <<< CHUNKSZ ||| BitVec.ofNat NR_CPUS st.chunk =
      BitVec.ofNat NR_CPUS (chunksValue (complete ++ [current])) := by
  rw [scanned.mask, scanned.chunk, shiftLeft_or_ofNat scanned.readable.small, chunksValue_append_singleton]

/-- Behind leading chunks of zeros the value is not zero. -/
theorem Scanned.value_ne_zero (scanned : Scanned complete current st mask)
    (leading : ¬ (st.nchunks = 0 ∧ st.chunk = 0)) : chunksValue (complete ++ [current]) ≠ 0 := by
  intro zero
  rw [chunksValue_append_singleton, Nat.add_eq_zero_iff, Nat.mul_eq_zero] at zero
  obtain ⟨high | power, low⟩ := zero
  · exact leading ⟨scanned.nchunks.mpr high, scanned.chunk.trans low⟩
  · exact absurd power (by decide)

/-- A chunk ends with an error if it is empty or does not fit, and is complete otherwise. -/
theorem Scanned.endChunk_cases (scanned : Scanned complete current st mask) :
    (current = [] ∧ endChunk st mask = (mask, .error .EINVAL)) ∨
      (current ≠ [] ∧ ¬ Fits (complete ++ [current]) ∧ ∃ mask', endChunk st mask = (mask', .error .EOVERFLOW)) ∨
        (current ≠ [] ∧ ∃ st' mask', endChunk st mask = (mask', .ok st') ∧
          Scanned (complete ++ [current]) [] st' mask') := by
  have some : spell (complete ++ [current]) [] ≠ [] := by simp [spell]
  by_cases filled : current = []
  · left
    exact ⟨filled, if_pos (scanned.ndigits.mpr filled)⟩
  have digits : st.ndigits ≠ 0 := fun none => filled (scanned.ndigits.mp none)
  have total : st.totaldigits ≠ 0 := by
    intro none
    have empty := scanned.totaldigits.mp none
    simp [spell, filled] at empty
  have last : st.totaldigits = 0 ∨ isSpace st.c = false := scanned.last
  right
  unfold endChunk
  rw [if_neg digits]
  by_cases leading : st.nchunks = 0 ∧ st.chunk = 0
  · have zero : chunksValue complete = 0 := scanned.nchunks.mp leading.1
    have none : hexValue current = 0 := scanned.chunk ▸ leading.2
    have value : chunksValue (complete ++ [current]) = 0 := by
      rw [chunksValue_append_singleton, zero, none, Nat.zero_mul]
    right
    rw [if_pos leading]
    refine ⟨filled, _, _, rfl, ?_⟩
    exact
      { readable := scanned.readable.next filled (value ▸ Nat.two_pow_pos NR_CPUS)
        mask := by rw [value, ← zero]; exact scanned.mask
        chunk := leading.2
        ndigits := by simp
        totaldigits := by simp [total, some]
        nchunks := by simp [leading.1, value]
        nbits := by rw [value, ← zero]; exact scanned.nbits
        last := last }
  · rw [if_neg leading]
    dsimp only
    rw [scanned.nbits_next, scanned.mask_next]
    by_cases long : fls (chunksValue (complete ++ [current])) > NR_CPUS
    · left
      rw [if_pos long]
      refine ⟨filled, ?_, _, rfl⟩
      intro fits
      exact absurd (fls_le_iff.mpr fits.2) (not_le.mpr long)
    · right
      rw [if_neg long]
      refine ⟨filled, _, _, rfl, ?_⟩
      exact
        { readable := scanned.readable.next filled (fls_le_iff.mp (not_lt.mp long))
          mask := rfl
          chunk := rfl
          ndigits := by simp
          totaldigits := by simp [total, some]
          nchunks := iff_of_false (Nat.succ_ne_zero _) (scanned.value_ne_zero leading)
          nbits := rfl
          last := last }

/-- The last character read does not matter to the end of a chunk. -/
@[simp] theorem finish_last : finish { st with c := c } mask = finish st mask := by
  unfold finish endChunk
  dsimp only
  split_ifs <;> rfl

/-- Blanks at the end of the text change nothing. -/
theorem parseFrom_back {back rest : List Char} (spaces : Spaces back) (ends : ∀ c ∈ rest.head?, c = '\x00') :
    parseFrom (back ++ rest) st mask = finish st mask := by
  induction back generalizing st with
  | nil =>
    cases rest with
    | nil => rfl
    | cons c rest =>
      obtain rfl := ends c rfl
      rw [List.nil_append, parseFrom]
      dsimp only
      rw [if_neg (by decide), if_neg (by simp), if_pos (.inl rfl), ← finish_last (c := '\x00'), finish]
      rcases endChunk { st with c := '\x00' } mask with ⟨_, e | _⟩
      · rfl
      · exact if_neg (by simp)
  | cons c back ih =>
    rw [List.cons_append, parseFrom]
    dsimp only
    rw [if_pos (spaces c List.mem_cons_self), ih fun c member => spaces c (List.mem_cons_of_mem _ member)]
    exact finish_last

/-- Behind a space only the end of the text is read. -/
theorem parseFrom_gap {gap rest : List Char} (digits : st.totaldigits ≠ 0) (spaces : Spaces gap)
    (apart : isSpace st.c = true ∨ gap ≠ []) (space : isSpace c = false) (nul : c ≠ '\x00') :
    parseFrom (gap ++ c :: rest) st mask = (mask, none) := by
  induction gap generalizing st with
  | nil =>
    have behind : isSpace st.c = true := apart.resolve_right fun h => h rfl
    rw [List.nil_append, parseFrom]
    dsimp only
    rw [if_neg (by simp [space]), if_pos ⟨digits, nul, behind⟩]
  | cons s gap ih =>
    have first := spaces s List.mem_cons_self
    rw [List.cons_append, parseFrom]
    dsimp only
    rw [if_pos first]
    exact ih digits (fun c member => spaces c (List.mem_cons_of_mem _ member)) (.inl first)

theorem Spaces.append {first second : List Char} (one : Spaces first) (two : Spaces second) :
    Spaces (first ++ second) := by
  intro c member
  rcases List.mem_append.mp member with left | right
  · exact one c left
  · exact two c right

theorem Spaces.plain {s : List Char} (spaces : Spaces s) : ∀ c ∈ s, (c != '\x00') = true := by
  intro c member
  have blank := spaces c member
  simp only [bne_iff_ne]
  rintro rfl
  contradiction

/-- Blanks in front of the text are skipped. -/
theorem Scanned.front {front : List Char} (rest : List Char) (scanned : Scanned [] [] st mask)
    (spaces : Spaces front) :
    ∃ st', Scanned [] [] st' mask ∧ parseFrom (front ++ rest) st mask = parseFrom rest st' mask := by
  induction front generalizing st with
  | nil => exact ⟨st, scanned, rfl⟩
  | cons s front ih =>
    have first := spaces s List.mem_cons_self
    have none : st.totaldigits = 0 := scanned.totaldigits.mpr rfl
    have skipped : Scanned [] [] { st with c := s } mask := { scanned with last := .inl none }
    obtain ⟨st', next, same⟩ := ih skipped fun c member => spaces c (List.mem_cons_of_mem _ member)
    refine ⟨st', next, ?_⟩
    rw [List.cons_append, parseFrom]
    dsimp only
    rw [if_pos first]
    exact same

/-- No blank stands between what has been read and the next character. -/
theorem Scanned.joined (scanned : Scanned complete current st mask) :
    ¬ (st.totaldigits ≠ 0 ∧ c ≠ '\x00' ∧ isSpace st.c = true) := by
  rintro ⟨some, _, behind⟩
  rcases scanned.last with none | last
  · exact some none
  · rw [last] at behind
    contradiction

/-- A digit is appended to the current chunk, or does not fit in it. -/
theorem Scanned.digit_cases (rest : List Char) (scanned : Scanned complete current st mask)
    (digit : isXDigit c = true) :
    (hexValue (current ++ [c]) < 2 ^ CHUNKSZ ∧ ∃ st', Scanned complete (current ++ [c]) st' mask ∧
      parseFrom (c :: rest) st mask = parseFrom rest st' mask) ∨
        (2 ^ CHUNKSZ ≤ hexValue (current ++ [c]) ∧ parseFrom (c :: rest) st mask = (mask, some .EOVERFLOW)) := by
  have space := isSpace_of_isXDigit digit
  have other := ne_of_isXDigit digit
  have least := unhex_lt digit
  rw [parseFrom]
  dsimp only
  rw [if_neg (by simp [space]), if_neg scanned.joined, if_neg (by simp [other]), if_neg (by simp [digit]), scanned.chunk,
    hexValue_append_singleton, CHUNKSZ]
  by_cases full : hexValue current ≥ 2 ^ (32 - 4)
  · right
    rw [if_pos full]
    exact ⟨by omega, rfl⟩
  · left
    rw [if_neg full]
    have small : hexValue current * 16 + unhex c < 2 ^ 32 := by omega
    refine ⟨small, _, ?_, rfl⟩
    exact
      { readable :=
          { scanned.readable with
            digits := scanned.readable.digits.append_singleton digit
            small := by rw [hexValue_append_singleton]; exact small }
        mask := scanned.mask
        chunk := hexValue_append_singleton.symm
        ndigits := by simp
        totaldigits := by simp [spell]
        nchunks := scanned.nchunks
        nbits := scanned.nbits
        last := .inr space }

/-- What comes of a comma: an empty chunk, one that does not fit, or one more complete chunk. -/
theorem Scanned.comma_cases {rest : List Char} (scanned : Scanned complete current st mask) :
    (current = [] ∧ parseFrom (',' :: rest) st mask = (mask, some .EINVAL)) ∨
      (current ≠ [] ∧ ¬ Fits (complete ++ [current]) ∧
        ∃ mask', parseFrom (',' :: rest) st mask = (mask', some .EOVERFLOW)) ∨
          (current ≠ [] ∧ ∃ st' mask', Scanned (complete ++ [current]) [] st' mask' ∧
            parseFrom (',' :: rest) st mask = if rest.isEmpty then (mask', none) else parseFrom rest st' mask') := by
  have moved : Scanned complete current { st with c := ',' } mask := { scanned with last := .inr rfl }
  rw [parseFrom]
  dsimp only
  rw [if_neg (by decide), if_neg scanned.joined, if_pos (.inr rfl)]
  rcases moved.endChunk_cases with ⟨empty, same⟩ | ⟨filled, large, mask', same⟩ | ⟨filled, st', mask', same, next⟩
  · rw [same]
    exact .inl ⟨empty, rfl⟩
  · rw [same]
    exact .inr (.inl ⟨filled, large, mask', rfl⟩)
  · rw [same]
    refine .inr (.inr ⟨filled, st', mask', next, ?_⟩)
    cases rest with
    | nil => rfl
    | cons c rest => rfl

/-- What comes of the end of the text. -/
theorem Scanned.finish_cases (scanned : Scanned complete current st mask) :
    (current = [] ∧ finish st mask = (mask, some .EINVAL)) ∨
      (current ≠ [] ∧ ¬ Fits (complete ++ [current]) ∧ ∃ mask', finish st mask = (mask', some .EOVERFLOW)) ∨
        (current ≠ [] ∧ Fits (complete ++ [current]) ∧
          finish st mask = (BitVec.ofNat NR_CPUS (chunksValue (complete ++ [current])), none)) := by
  unfold finish
  rcases scanned.endChunk_cases with ⟨empty, same⟩ | ⟨filled, large, mask', same⟩ | ⟨filled, st', mask', same, next⟩
  · rw [same]
    exact .inl ⟨empty, rfl⟩
  · rw [same]
    exact .inr (.inl ⟨filled, large, mask', rfl⟩)
  · rw [same, next.mask]
    exact .inr (.inr ⟨filled, next.readable.fits, rfl⟩)

end Steps

section Runs

variable {complete more : List (List Char)} {current digits buf rest : List Char} {st : HexState} {mask : CpuMask}

theorem le_hexValue_append : hexValue current ≤ hexValue (current ++ digits) := by
  induction digits using List.reverseRecOn with
  | nil => rw [List.append_nil]
  | append_singleton digits c ih =>
    rw [← List.append_assoc, hexValue_append_singleton]
    omega

theorem le_chunksValue_append : chunksValue complete ≤ chunksValue (complete ++ more) := by
  induction more using List.reverseRecOn with
  | nil => rw [List.append_nil]
  | append_singleton more chunk ih =>
    rw [← List.append_assoc, chunksValue_append_singleton]
    calc chunksValue complete ≤ chunksValue (complete ++ more) := ih
      _ ≤ chunksValue (complete ++ more) * 2 ^ CHUNKSZ := Nat.le_mul_of_pos_right _ (by decide)
      _ ≤ chunksValue (complete ++ more) * 2 ^ CHUNKSZ + hexValue chunk := Nat.le_add_right _ _

theorem Fits.of_append (fits : Fits (complete ++ more)) : Fits complete :=
  ⟨fun chunk member => fits.1 chunk (List.mem_append_left more member), le_chunksValue_append.trans_lt fits.2⟩

/-- The digits of a chunk are read, or one of them does not fit. -/
theorem Scanned.digits_cases (scanned : Scanned complete current st mask) (hex : HexDigits digits) :
    (hexValue (current ++ digits) < 2 ^ CHUNKSZ ∧ ∃ st', Scanned complete (current ++ digits) st' mask ∧
      parseFrom (digits ++ rest) st mask = parseFrom rest st' mask) ∨
        (2 ^ CHUNKSZ ≤ hexValue (current ++ digits) ∧
          parseFrom (digits ++ rest) st mask = (mask, some .EOVERFLOW)) := by
  induction digits generalizing current st with
  | nil =>
    rw [List.append_nil]
    exact .inl ⟨scanned.readable.small, st, scanned, rfl⟩
  | cons c digits ih =>
    have step := scanned.digit_cases (digits ++ rest) (hex c List.mem_cons_self)
    have split : current ++ c :: digits = current ++ [c] ++ digits := by simp
    rw [split, List.cons_append]
    rcases step with ⟨_, st', next, same⟩ | ⟨large, same⟩
    · rw [same]
      exact ih next fun d member => hex d (List.mem_cons_of_mem c member)
    · exact .inr ⟨large.trans le_hexValue_append, same⟩

theorem spell_cons {chunk : List Char} : spell (chunk :: more) current = chunk ++ ',' :: spell more current := by
  simp [spell]

theorem spell_cons_append {chunk : List Char} :
    spell (chunk :: more) current ++ rest = chunk ++ ',' :: (spell more current ++ rest) := by
  rw [spell_cons, List.append_assoc, List.cons_append]

theorem spell_append_ne_nil (goes : current ++ rest ≠ []) : spell more current ++ rest ≠ [] := by
  rw [spell, List.append_assoc]
  exact List.append_ne_nil_of_right_ne_nil _ goes

/-- A chunk with a comma and more text behind it is read, or does not fit. -/
theorem Scanned.chunk_cases {chunk : List Char} (scanned : Scanned complete [] st mask) (filled : chunk ≠ [])
    (figures : HexDigits chunk) (further : rest ≠ []) :
    (∃ st' mask', Scanned (complete ++ [chunk]) [] st' mask' ∧
      parseFrom (chunk ++ ',' :: rest) st mask = parseFrom rest st' mask') ∨
        (¬ Fits (complete ++ [chunk]) ∧
          ∃ mask', parseFrom (chunk ++ ',' :: rest) st mask = (mask', some .EOVERFLOW)) := by
  rcases scanned.digits_cases figures with ⟨_, st₁, one, read⟩ | ⟨large, same⟩
  · rcases one.comma_cases with ⟨empty, _⟩ | ⟨_, large, mask', failed⟩ | ⟨_, st₂, mask₂, two, ended⟩
    · exact absurd empty filled
    · exact .inr ⟨large, mask', read.trans failed⟩
    · refine .inl ⟨st₂, mask₂, two, ?_⟩
      rw [read, ended, if_neg (by simpa using further)]
  · refine .inr ⟨?_, mask, same⟩
    intro fits
    have bound := fits.1 chunk (by simp)
    exact absurd bound (not_lt.mpr large)

/-- Chunks that fit are read. -/
theorem Scanned.reads (rest : List Char) (scanned : Scanned complete [] st mask)
    (each : ∀ chunk ∈ more, chunk ≠ [] ∧ HexDigits chunk) (fits : Fits (complete ++ more))
    (hex : HexDigits current) (small : hexValue current < 2 ^ CHUNKSZ) (goes : current ++ rest ≠ []) :
    ∃ st' mask', Scanned (complete ++ more) current st' mask' ∧
      parseFrom (spell more current ++ rest) st mask = parseFrom rest st' mask' := by
  induction more generalizing complete st mask with
  | nil =>
    rw [List.append_nil]
    rcases scanned.digits_cases hex with ⟨_, st', next, same⟩ | ⟨large, _⟩
    · exact ⟨st', mask, next, same⟩
    · exact absurd small (not_lt.mpr large)
  | cons chunk more ih =>
    obtain ⟨filled, figures⟩ := each chunk List.mem_cons_self
    rw [List.append_cons complete chunk more] at fits ⊢
    rw [spell_cons_append]
    rcases scanned.chunk_cases filled figures (spell_append_ne_nil goes) with ⟨st', mask', next, read⟩ | ⟨large, _⟩
    · rw [read]
      exact ih next (fun c member => each c (List.mem_cons_of_mem chunk member)) fits
    · exact absurd fits.of_append large

/-- Chunks that do not fit are refused. -/
theorem Scanned.refuses {back : List Char} (scanned : Scanned complete [] st mask)
    (each : ∀ chunk ∈ more, chunk ≠ [] ∧ HexDigits chunk) (hex : HexDigits current)
    (large : ¬ Fits (complete ++ more ++ [current])) (filled : current ≠ []) (spaces : Spaces back)
    (ends : ∀ c ∈ rest.head?, c = '\x00') :
    ∃ mask', parseFrom (spell more current ++ (back ++ rest)) st mask = (mask', some .EOVERFLOW) := by
  induction more generalizing complete st mask with
  | nil =>
    rw [List.append_nil] at large
    rcases scanned.digits_cases hex with ⟨_, st', next, same⟩ | ⟨_, same⟩
    · rw [parseFrom_back spaces ends] at same
      rcases next.finish_cases with ⟨empty, _⟩ | ⟨_, _, mask', failed⟩ | ⟨_, fits, _⟩
      · exact absurd empty filled
      · exact ⟨mask', same.trans failed⟩
      · exact absurd fits large
    · exact ⟨mask, same⟩
  | cons chunk more ih =>
    obtain ⟨some, figures⟩ := each chunk List.mem_cons_self
    have goes : current ++ (back ++ rest) ≠ [] := List.append_ne_nil_of_left_ne_nil filled _
    rw [List.append_cons complete chunk more] at large
    rw [spell_cons_append]
    rcases scanned.chunk_cases some figures (spell_append_ne_nil goes) with ⟨st', mask', next, read⟩ | ⟨_, failed⟩
    · rw [read]
      exact ih next (fun c member => each c (List.mem_cons_of_mem chunk member)) large
    · exact failed

end Runs

section Texts

variable {complete chunks : List (List Char)} {current front back buf rest : List Char} {st : HexState} {mask : CpuMask}

theorem intercalate_eq_spell : [','].intercalate (complete ++ [current]) = spell complete current :=
  intercalate_append_singleton

/-- Chunks that have been read are a text of the grammar. -/
theorem Spelled.hexText (spelled : Spelled complete current) (filled : current ≠ []) (before : Spaces front)
    (behind : Spaces back) : HexText (front ++ spell complete current ++ back) (complete ++ [current]) where
  some := by simp
  digits chunk member := by
    rcases List.mem_append.mp member with old | new
    · exact spelled.chunks chunk old
    · rw [List.mem_singleton.mp new]
      exact ⟨filled, spelled.digits⟩
  spelled := ⟨front, back, before, behind, by rw [intercalate_eq_spell]⟩

/-- The buffer is its text and what starts with the NUL behind it. -/
theorem exists_cString_append (buf : List Char) : ∃ tail, buf = cString buf ++ tail ∧ ∀ c ∈ tail.head?, c = '\x00' := by
  refine ⟨buf.dropWhile (· != '\x00'), List.takeWhile_append_dropWhile.symm, ?_⟩
  intro c head
  have stop := List.head?_dropWhile_not (· != '\x00') buf
  rw [Option.mem_def.mp head] at stop
  simpa using stop

/-- Texts of the grammar are accepted with their value if it fits. -/
theorem bitmapParse_hexText (text : HexText (cString buf) chunks) :
    (Fits chunks → bitmapParse buf = (BitVec.ofNat NR_CPUS (chunksValue chunks), none)) ∧
      (¬ Fits chunks → ∃ mask', bitmapParse buf = (mask', some .EOVERFLOW)) := by
  obtain ⟨front, back, before, behind, spelled⟩ := text.spelled
  obtain ⟨tail, whole, ends⟩ := exists_cString_append buf
  obtain ⟨complete, current, rfl⟩ : ∃ complete current, chunks = complete ++ [current] :=
    ⟨_, _, (List.dropLast_append_getLast text.some).symm⟩
  obtain ⟨filled, hex⟩ := text.digits current (by simp)
  have each : ∀ chunk ∈ complete, chunk ≠ [] ∧ HexDigits chunk := fun chunk member =>
    text.digits chunk (List.mem_append_left _ member)
  rw [intercalate_eq_spell] at spelled
  have parts : buf = front ++ (spell complete current ++ (back ++ tail)) := by
    rw [whole, spelled]
    simp
  obtain ⟨st, started, skipped⟩ := scanned_start.front _ before
  rw [← parts] at skipped
  unfold bitmapParse
  rw [skipped]
  constructor
  · intro fits
    obtain ⟨st', mask', last, read⟩ := started.reads _ each fits.of_append hex
      (fits.1 current (by simp)) (List.append_ne_nil_of_left_ne_nil filled _)
    rw [read, parseFrom_back behind ends]
    rcases last.finish_cases with ⟨empty, _⟩ | ⟨_, large, _⟩ | ⟨_, _, same⟩
    · exact absurd empty filled
    · exact absurd fits large
    · exact same
  · intro large
    exact started.refuses each hex large filled behind ends

theorem Spelled.mem {c : Char} (spelled : Spelled complete current) (member : c ∈ spell complete current) :
    isXDigit c = true ∨ c = ',' := by
  rcases List.mem_append.mp member with chunks | last
  · obtain ⟨chunk, inside, position⟩ := List.mem_flatMap.mp chunks
    rcases List.mem_append.mp position with figure | comma
    · exact .inl ((spelled.chunks chunk inside).2 c figure)
    · exact .inr (List.mem_singleton.mp comma)
  · exact .inl (spelled.digits c last)

/-- What the scan has read has no NUL in it. -/
theorem Spelled.cString_append (rest : List Char) (spelled : Spelled complete current)
    (before : Spaces front) :
    cString (front ++ spell complete current ++ rest) = front ++ spell complete current ++ cString rest := by
  have plain : ∀ c ∈ front ++ spell complete current, (c != '\x00') = true := by
    intro c member
    rcases List.mem_append.mp member with space | text
    · exact before.plain c space
    · rcases spelled.mem text with digit | rfl
      · simpa using (ne_of_isXDigit digit).1
      · rfl
  exact List.takeWhile_append_of_pos plain

/-- A result other than `-EINVAL` has a reason in the buffer. -/
structure Explained (buf : List Char) (parsed : Parsed) : Prop where
  accepted : parsed.2 = none → (∃ chunks, HexText (cString buf) chunks) ∨ EmbeddedSpace (cString buf) ∨ TrailingComma buf
  overflow : parsed.2 = some .EOVERFLOW → Oversized (cString buf)
  range : parsed.2 ≠ some .ERANGE

theorem explained_invalid : Explained buf (mask, some .EINVAL) :=
  ⟨nofun, nofun, nofun⟩

theorem explained_overflow (large : Oversized (cString buf)) : Explained buf (mask, some .EOVERFLOW) :=
  ⟨nofun, fun _ => large, nofun⟩

theorem explained_accepted
    (reason : (∃ chunks, HexText (cString buf) chunks) ∨ EmbeddedSpace (cString buf) ∨ TrailingComma buf) :
    Explained buf (mask, none) :=
  ⟨fun _ => reason, nofun, nofun⟩

/-- Behind a chunk that does not fit. -/
theorem Spelled.oversized (spelled : Spelled complete current) (before : Spaces front) (filled : current ≠ [])
    (large : ¬ Fits (complete ++ [current])) : Oversized (cString (front ++ spell complete current ++ rest)) := by
  have text := spelled.hexText filled before fun c member => absurd member List.not_mem_nil
  rw [List.append_nil] at text
  rw [spelled.cString_append _ before]
  exact ⟨_, _, List.prefix_append _ _, text, large⟩

/-- At the end of the text. -/
theorem Scanned.explained_end (scanned : Scanned complete current st mask) (before : Spaces front)
    (behind : Spaces back) (ends : ∀ c ∈ rest.head?, c = '\x00') :
    Explained (front ++ spell complete current ++ (back ++ rest)) (finish st mask) := by
  rcases scanned.finish_cases with ⟨_, same⟩ | ⟨filled, large, _, same⟩ | ⟨filled, _, same⟩
  · rw [same]
    exact explained_invalid
  · rw [same]
    exact explained_overflow (scanned.readable.oversized before filled large)
  · have none : cString rest = [] := by
      cases rest with
      | nil => rfl
      | cons c rest =>
        obtain rfl := ends c rfl
        rfl
    have text : cString (back ++ rest) = back := by
      rw [cString, List.takeWhile_append_of_pos behind.plain, ← cString, none, List.append_nil]
    rw [same]
    apply explained_accepted
    rw [scanned.readable.cString_append _ before, text]
    exact .inl ⟨_, scanned.readable.hexText filled before behind⟩

theorem spell_eq_nil_iff : spell complete current = [] ↔ complete = [] ∧ current = [] := by
  cases complete with
  | nil => simp [spell]
  | cons chunk complete => simp [spell_cons]

/-- At a blank behind the first digit. -/
theorem Scanned.explained_gap {c : Char} (scanned : Scanned complete current st mask) (before : Spaces front)
    (digits : st.totaldigits ≠ 0) (space : isSpace c = true) :
    Explained (front ++ spell complete current ++ c :: rest) (parseFrom (c :: rest) st mask) := by
  obtain ⟨gap, tail, whole, blanks, apart, stop⟩ : ∃ gap tail, c :: rest = gap ++ tail ∧ Spaces gap ∧ gap ≠ [] ∧
      ∀ d ∈ tail.head?, isSpace d = false := by
    refine ⟨(c :: rest).takeWhile isSpace, (c :: rest).dropWhile isSpace, List.takeWhile_append_dropWhile.symm,
      fun d member => List.mem_takeWhile_imp member, ?_, ?_⟩
    · rw [List.takeWhile_cons_of_pos space]
      exact List.cons_ne_nil _ _
    · intro d head
      have stop := List.head?_dropWhile_not isSpace (c :: rest)
      rwa [Option.mem_def.mp head] at stop
  rw [whole]
  cases tail with
  | nil =>
    have ends : ∀ d ∈ ([] : List Char).head?, d = '\x00' := fun d head => absurd head (Option.not_mem_none d)
    rw [parseFrom_back blanks ends]
    exact scanned.explained_end before blanks ends
  | cons d tail =>
    by_cases nul : d = '\x00'
    · have ends : ∀ e ∈ (d :: tail).head?, e = '\x00' := by
        rintro e ⟨⟩
        exact nul
      rw [parseFrom_back blanks ends]
      exact scanned.explained_end before blanks ends
    · rw [parseFrom_gap digits blanks (.inr apart) (stop d rfl) nul]
      apply explained_accepted
      refine .inr (.inl ⟨front, complete, current, gap, d, cString tail, before, scanned.readable, ?_, blanks, apart,
        stop d rfl, ?_⟩)
      · exact fun none => digits (scanned.totaldigits.mpr none)
      · rw [scanned.readable.cString_append _ before]
        rw [cString, List.takeWhile_append_of_pos blanks.plain, List.takeWhile_cons_of_pos (by simpa using nul), ← cString,
          List.append_assoc _ gap]

/-- Every result of the scan has its reason. -/
theorem Scanned.explained (scanned : Scanned complete current st mask) (before : Spaces front) :
    Explained (front ++ spell complete current ++ rest) (parseFrom rest st mask) := by
  induction rest generalizing front complete current st mask with
  | nil =>
    exact scanned.explained_end before (fun c member => absurd member List.not_mem_nil)
      fun c head => by contradiction
  | cons c rest ih =>
    by_cases space : isSpace c = true
    · by_cases start : st.totaldigits = 0
      · obtain ⟨rfl, rfl⟩ := spell_eq_nil_iff.mp (scanned.totaldigits.mp start)
        have blank : Spaces [c] := by simpa [Spaces] using space
        obtain ⟨st', next, same⟩ := scanned.front rest blank
        rw [← List.singleton_append, same]
        have longer := ih next (before.append blank)
        simpa [spell] using longer
      · exact scanned.explained_gap before start space
    by_cases nul : c = '\x00'
    · subst nul
      have none : Spaces [] := fun c member => absurd member List.not_mem_nil
      have ends : ∀ d ∈ ('\x00' :: rest).head?, d = '\x00' := by
        rintro d ⟨⟩
        rfl
      rw [← List.nil_append ('\x00' :: rest), parseFrom_back none ends]
      exact scanned.explained_end before none ends
    by_cases comma : c = ','
    · subst comma
      rcases scanned.comma_cases with
        ⟨_, same⟩ | ⟨filled, large, _, same⟩ | ⟨filled, st', mask', next, same⟩
      · rw [same]
        exact explained_invalid
      · rw [same]
        exact explained_overflow (scanned.readable.oversized before filled large)
      · have grown : spell (complete ++ [current]) [] = spell complete current ++ [','] := by simp [spell]
        rw [same]
        cases rest with
        | nil =>
          apply explained_accepted
          exact .inr (.inr ⟨front, complete ++ [current], before, next.readable, by simp, by rw [grown]; simp⟩)
        | cons d rest =>
          have later := ih next before
          rw [grown] at later
          simpa using later
    by_cases digit : isXDigit c = true
    · rcases scanned.digit_cases rest digit with ⟨_, st', next, same⟩ | ⟨large, same⟩
      · rw [same]
        have later := ih next before
        simpa [spell] using later
      · have longer : Spelled complete (current ++ [c]) :=
          ⟨scanned.readable.chunks, scanned.readable.digits.append_singleton digit⟩
        have text : front ++ spell complete current ++ c :: rest = front ++ spell complete (current ++ [c]) ++ rest := by
          simp [spell]
        rw [same, text]
        apply explained_overflow
        apply longer.oversized before (by simp)
        intro fits
        exact absurd (fits.1 (current ++ [c]) (by simp)) (not_lt.mpr large)
    · have refused : parseFrom (c :: rest) st mask = (mask, some .EINVAL) := by
        rw [parseFrom]
        dsimp only
        rw [if_neg space, if_neg scanned.joined, if_neg (by simp [nul, comma]), if_pos (by simpa using digit)]
      rw [refused]
      exact explained_invalid

/-- What follows the first word of a text. -/
theorem dropWhile_word {body : List Char} (before : Spaces front) (some : body ≠ [])
    (word : ∀ c ∈ body, isSpace c = false) (apart : ∀ c ∈ back.head?, isSpace c = true) :
    ((front ++ (body ++ back)).dropWhile isSpace).dropWhile (fun c => !isSpace c) = back := by
  obtain ⟨c, tail, rfl⟩ := List.exists_cons_of_ne_nil some
  have first := word c List.mem_cons_self
  rw [List.dropWhile_append_of_pos before, List.cons_append, List.dropWhile_cons_of_neg (by simp [first]),
    ← List.cons_append, List.dropWhile_append_of_pos fun d member => by simp [word d member]]
  cases back with
  | nil => rfl
  | cons d back =>
    have stop := apart d rfl
    rw [List.dropWhile_cons_of_neg (by simp [stop])]

/-- A text of the grammar as chunks that have been read, and the blanks around them. -/
theorem HexText.exists_spell {text : List Char} (hex : HexText text chunks) : ∃ front complete current back,
    Spaces front ∧ Spaces back ∧ Spelled complete current ∧ current ≠ [] ∧ chunks = complete ++ [current] ∧
      text = front ++ spell complete current ++ back := by
  obtain ⟨front, back, before, behind, spelled⟩ := hex.spelled
  obtain ⟨complete, current, rfl⟩ : ∃ complete current, chunks = complete ++ [current] :=
    ⟨_, _, (List.dropLast_append_getLast hex.some).symm⟩
  obtain ⟨filled, digits⟩ := hex.digits current (by simp)
  rw [intercalate_eq_spell] at spelled
  exact ⟨front, complete, current, back, before, behind,
    ⟨fun chunk member => hex.digits chunk (List.mem_append_left _ member), digits⟩, filled, rfl, spelled⟩

theorem Spelled.not_isSpace (spelled : Spelled complete current) : ∀ c ∈ spell complete current, isSpace c = false := by
  intro c member
  rcases spelled.mem member with digit | rfl
  · exact isSpace_of_isXDigit digit
  · rfl

/-- A text with an embedded blank is accepted, against the grammar. -/
theorem EmbeddedSpace.accepted (embedded : EmbeddedSpace (cString buf)) :
    (bitmapParse buf).2 = none ∧ ¬ ∃ chunks, HexText (cString buf) chunks := by
  obtain ⟨front, complete, current, gap, c, rest, before, readable, some, blanks, apart, space, text⟩ := embedded
  constructor
  · obtain ⟨tail, whole, _⟩ := exists_cString_append buf
    have nul : c ≠ '\x00' := by
      rintro rfl
      exact nul_not_mem_cString (s := buf) (by simp [text])
    have parts : buf = front ++ (spell complete current ++ (gap ++ c :: (rest ++ tail))) := by
      rw [whole, text]
      simp
    obtain ⟨st, started, skipped⟩ := scanned_start.front (spell complete current ++ (gap ++ c :: (rest ++ tail)))
      before
    obtain ⟨st', mask', last, read⟩ := started.reads (gap ++ c :: (rest ++ tail)) readable.chunks readable.fits
      readable.digits readable.small (by simp)
    have digits : st'.totaldigits ≠ 0 := fun none => some (last.totaldigits.mp none)
    rw [← parts] at skipped
    rw [bitmapParse, skipped, read, parseFrom_gap digits blanks (.inr apart) space nul]
  · rintro ⟨chunks, hex⟩
    obtain ⟨front', complete', current', back, before', behind, spelled, filled, _, same⟩ := hex.exists_spell
    have one : ((cString buf).dropWhile isSpace).dropWhile (fun c => !isSpace c) = back := by
      rw [same, List.append_assoc]
      apply dropWhile_word before' _ spelled.not_isSpace
      · intro d head
        exact behind d (List.mem_of_mem_head? head)
      · exact fun none => filled (spell_eq_nil_iff.mp none).2
    have two : ((cString buf).dropWhile isSpace).dropWhile (fun c => !isSpace c) = gap ++ c :: rest := by
      rw [text, List.append_assoc, List.append_assoc]
      apply dropWhile_word before some readable.not_isSpace
      obtain ⟨d, gap', rfl⟩ := List.exists_cons_of_ne_nil apart
      rintro _ ⟨⟩
      exact blanks d List.mem_cons_self
    have last := behind c (by rw [← one, two]; simp)
    rw [space] at last
    contradiction

/-- A text with a comma at its end is accepted, against the grammar. -/
theorem TrailingComma.accepted (trailing : TrailingComma buf) :
    (bitmapParse buf).2 = none ∧ ¬ ∃ chunks, HexText (cString buf) chunks := by
  obtain ⟨front, complete, before, readable, some, rfl⟩ := trailing
  obtain ⟨more, chunk, rfl⟩ : ∃ more chunk, complete = more ++ [chunk] :=
    ⟨_, _, (List.dropLast_append_getLast some).symm⟩
  have grown : spell (more ++ [chunk]) [] = spell more chunk ++ [','] := by simp [spell]
  have whole := readable.cString_append [] before
  rw [List.append_nil, show cString [] = [] from rfl, List.append_nil] at whole
  constructor
  · obtain ⟨filled, digits⟩ := readable.chunks chunk (by simp)
    obtain ⟨st, started, skipped⟩ := scanned_start.front _ before
    obtain ⟨st', mask', last, read⟩ := started.reads [',']
      (fun c member => readable.chunks c (List.mem_append_left _ member)) readable.fits.of_append digits
        (readable.fits.1 chunk (by simp)) (by simp)
    rw [bitmapParse, grown, skipped, read]
    rcases last.comma_cases with ⟨empty, _⟩ | ⟨_, large, _⟩ | ⟨_, _, _, _, same⟩
    · exact absurd empty filled
    · exact absurd readable.fits large
    · rw [same]
      rfl
  · rintro ⟨chunks, hex⟩
    obtain ⟨front', complete', current', back, before', behind, spelled, filled, _, same⟩ := hex.exists_spell
    rw [whole, grown, ← List.append_assoc] at same
    rcases List.eq_nil_or_concat back with rfl | ⟨back', c, rfl⟩
    · obtain ⟨current'', c, rfl⟩ := (List.eq_nil_or_concat current').resolve_left filled
      have last : spell complete' (current''.concat c) = spell complete' current'' ++ [c] := by simp [spell]
      rw [last, List.append_nil, ← List.append_assoc] at same
      have digit := spelled.digits c (by simp)
      rw [← List.append_singleton_inj.mp same |>.2] at digit
      contradiction
    · rw [List.concat_eq_append, ← List.append_assoc] at same
      have blank := behind c (by simp)
      rw [← List.append_singleton_inj.mp same |>.2] at blank
      contradiction

/-- What is accepted against the grammar is not as documented. -/
theorem DocumentedParse.hexText (documented : DocumentedParse (cString buf) (bitmapParse buf))
    (accepted : (bitmapParse buf).2 = none) : ∃ chunks, HexText (cString buf) chunks := by
  obtain ⟨chunks, hex, _⟩ := documented.accepted.mp accepted
  exact ⟨chunks, hex⟩

end Texts

/-- The parser does what its comment promises exactly on buffers without a blank inside the text and
without a comma at the end. -/
theorem bitmapParse_documented (buf : List Char) :
    DocumentedParse (cString buf) (bitmapParse buf) ↔ ¬ EmbeddedSpace (cString buf) ∧ ¬ TrailingComma buf := by
  have explained : Explained buf (bitmapParse buf) :=
    scanned_start.explained fun c member => absurd member List.not_mem_nil
  constructor
  · intro documented
    constructor
    · intro embedded
      exact embedded.accepted.2 (documented.hexText embedded.accepted.1)
    · intro trailing
      exact trailing.accepted.2 (documented.hexText trailing.accepted.1)
  · rintro ⟨joined, ends⟩
    exact
      { accepted := by
          constructor
          · intro none
            obtain ⟨chunks, hex⟩ := (explained.accepted none).resolve_right (not_or.mpr ⟨joined, ends⟩)
            refine ⟨chunks, hex, ?_⟩
            by_contra large
            obtain ⟨mask', failed⟩ := (bitmapParse_hexText hex).2 large
            rw [failed] at none
            contradiction
          · rintro ⟨chunks, hex, fits⟩
            rw [(bitmapParse_hexText hex).1 fits]
        value := by
          intro chunks hex fits
          rw [(bitmapParse_hexText hex).1 fits]
        invalid := by
          rintro invalid ⟨chunks, hex⟩
          by_cases fits : Fits chunks
          · rw [(bitmapParse_hexText hex).1 fits] at invalid
            contradiction
          · obtain ⟨mask', failed⟩ := (bitmapParse_hexText hex).2 fits
            rw [failed] at invalid
            exact absurd (Option.some.inj invalid) (by decide)
        overflow := explained.overflow
        range := explained.range }

/-- `1 2` and `1,` are accepted. -/
theorem bitmapParse_embedded : ¬ DocumentedParse (cString "1 2".toList) (bitmapParse "1 2".toList) ∧
    ¬ DocumentedParse (cString "1,".toList) (bitmapParse "1,".toList) := by
  have one : HexDigits ['1'] := fun c member => by rw [List.mem_singleton.mp member]; rfl
  have read : Readable [] ['1'] :=
    { chunks := nofun, digits := one, fits := ⟨nofun, Nat.two_pow_pos NR_CPUS⟩, small := by decide }
  constructor
  · intro documented
    have embedded : EmbeddedSpace (cString "1 2".toList) :=
      ⟨[], [], ['1'], [' '], '2', [], nofun, read, by decide, by simp [Spaces, isSpace], by decide, rfl, rfl⟩
    exact embedded.accepted.2 (documented.hexText embedded.accepted.1)
  · intro documented
    have complete : Readable [['1']] [] := read.next (by decide) (by decide +kernel)
    have trailing : TrailingComma "1,".toList := ⟨[], [['1']], nofun, complete, by decide, rfl⟩
    exact trailing.accepted.2 (documented.hexText trailing.accepted.1)

end Irqbalance
