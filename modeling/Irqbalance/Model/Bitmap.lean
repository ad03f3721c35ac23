import Irqbalance.Lib.CText
import Irqbalance.Model.Types
import Mathlib.Data.Nat.Log

/-! # Masks as text

The printer and the two parsers of `bitmap.c` for masks of `NR_CPUS` bits. The parsers' nested loops
over a buffer are one recursion over its characters, with the end of a chunk or of a range as a
function of its own. Callers ignore the returned codes.
-/

namespace Irqbalance

open CText (isSpace toInt)

/-- The error codes of the parsers. -/
inductive ParseError where
  | EINVAL
  | EOVERFLOW
  | ERANGE
deriving DecidableEq, Repr

/-- `CHUNKSZ`. -/
def CHUNKSZ : ℕ := 32

/-- `%0*lx` for a value that fits the width. -/
def showHex : ℕ → ℕ → List Char
  | 0, _ => []
  | width + 1, n => showHex width (n / 16) ++ [Nat.digitChar (n % 16)]

/-- The buffer of `bitmap_scnprintf` as a string, the length it would need, and the sizes
`buflen - len` handed to `snprintf`, before their conversion to an unsigned type. -/
structure Printing where
  text : List Char := []
  len : ℕ := 0
  sizes : List ℤ := []
  first : Bool := true
deriving DecidableEq, Repr

/-- One round of `bitmap_scnprintf` for the chunk with index `k`. Once `len` has reached `buflen` a
round no longer changes the string, whether its size is 0 or has wrapped. -/
def printChunk (buflen : ℕ) (mask : CpuMask) (k : ℕ) (p : Printing) : Printing :=
  let val := mask.toNat / 2 ^ (CHUNKSZ * k) % 2 ^ CHUNKSZ
  if val ≠ 0 ∨ p.first = false ∨ k = 0 then
    let chunk := (if p.first then [] else [',']) ++ showHex ((CHUNKSZ + 3) / 4) val
    { text := (p.text ++ chunk).take (buflen - 1)
      len := p.len + chunk.length
      sizes := p.sizes ++ [(buflen : ℤ) - p.len]
      first := false }
  else p

/-- The loop of `bitmap_scnprintf` over the chunks below `k`, the highest first. -/
def printChunks (buflen : ℕ) (mask : CpuMask) : ℕ → Printing → Printing
  | 0, p => p
  | k + 1, p => printChunks buflen mask k (printChunk buflen mask k p)

/-- `cpumask_scnprintf`. -/
def cpumaskScnprintf (buflen : ℕ) (mask : CpuMask) : Printing :=
  printChunks buflen mask (NR_CPUS / CHUNKSZ) {}

/-- `set_bit` with a number below `NR_CPUS`. -/
def setBit (n : ℕ) (mask : CpuMask) : CpuMask := mask ||| cpumaskOfCpu n

/-- `while (a <= b) set_bit(a++, maskp)` for `count` numbers. -/
def setBits (a : ℕ) : ℕ → CpuMask → CpuMask
  | 0, mask => mask
  | count + 1, mask => setBits (a + 1) count (setBit a mask)

/-- What a parser leaves in the mask, and its error code. -/
abbrev Parsed := CpuMask × Option ParseError

/-- The variables of `__bitmap_parselist`, with the last character read. -/
structure ListState where
  a : ℤ := 0
  b : ℤ := 0
  c : Char := '\x00'
  totaldigits : ℕ := 0
  expDigit : Bool := true
  inRange : Bool := false
deriving DecidableEq, Repr

/-- The variables at the start of the next number or range. -/
def ListState.next (st : ListState) : ListState := { c := st.c, totaldigits := st.totaldigits }

/-- The end of a number or range; `none` for a `set_bit` in front of the mask. -/
def endRange (st : ListState) (mask : CpuMask) : Option Parsed :=
  if ¬ st.a ≤ st.b then some (mask, some .EINVAL)
  else if st.b ≥ NR_CPUS then some (mask, some .ERANGE)
  else if st.a < 0 then none
  else some (setBits st.a.toNat (st.b - st.a + 1).toNat mask, none)

/-- `__bitmap_parselist` from the middle of a number or range on. -/
def parselistFrom : List Char → ListState → CpuMask → Option Parsed
  | [], st, mask => endRange st mask
  | c :: buf, st, mask =>
    let oldC := st.c
    let st := { st with c := c }
    if isSpace c then parselistFrom buf st mask
    -- embedded white space
    else if st.totaldigits ≠ 0 ∧ c ≠ '\x00' ∧ isSpace oldC then some (mask, some .EINVAL)
    else if c = '\x00' then endRange st mask
    else if c = ',' then
      match endRange st mask with
      | none => none
      | some (mask, some e) => some (mask, some e)
      | some (mask, none) =>
        if buf.isEmpty then some (mask, none) else parselistFrom buf st.next mask
    else if c = '-' then
      if st.expDigit || st.inRange then some (mask, some .EINVAL)
      else parselistFrom buf { st with b := 0, inRange := true, expDigit := true } mask
    else if !c.isDigit then some (mask, some .EINVAL)
    else
      let b := toInt (st.b * 10 + (c.toNat - '0'.toNat : ℕ))
      parselistFrom buf
        { st with
          b := b, a := if st.inRange then st.a else b
          expDigit := false, totaldigits := st.totaldigits + 1 } mask

/-- `cpulist_parse(buf, strlen(buf), maskp)`. -/
def cpulistParse (buf : List Char) : Option Parsed :=
  parselistFrom (CText.cString buf) {} CPU_MASK_NONE

/-- The variables of `__bitmap_parse`, with the last character read. -/
structure HexState where
  chunk : ℕ := 0
  ndigits : ℕ := 0
  totaldigits : ℕ := 0
  nchunks : ℕ := 0
  nbits : ℕ := 0
  c : Char := '\x00'
deriving DecidableEq, Repr

/-- `isxdigit`. -/
def isXDigit (c : Char) : Bool :=
  c.isDigit || decide ('a' ≤ c ∧ c ≤ 'f') || decide ('A' ≤ c ∧ c ≤ 'F')

/-- `unhex`. -/
def unhex (c : Char) : ℕ :=
  if c.isDigit then c.toNat - '0'.toNat else c.toUpper.toNat - 'A'.toNat + 10

/-- `fls`. -/
def fls (n : ℕ) : ℕ := if n = 0 then 0 else Nat.log2 n + 1

/-- The end of a chunk: the new variables and mask, or an error code. -/
def endChunk (st : HexState) (mask : CpuMask) : CpuMask × Except ParseError HexState :=
  if st.ndigits = 0 then (mask, .error .EINVAL)
  else if st.nchunks = 0 ∧ st.chunk = 0 then (mask, .ok { st with ndigits := 0 })
  else
    let mask := mask <<< CHUNKSZ ||| BitVec.ofNat NR_CPUS st.chunk
    let nbits := st.nbits + if st.nchunks = 0 then fls st.chunk else CHUNKSZ
    if nbits > NR_CPUS then (mask, .error .EOVERFLOW)
    else (mask, .ok
      { st with chunk := 0, ndigits := 0, nchunks := st.nchunks + 1, nbits := nbits })

/-- `__bitmap_parse` from the middle of a chunk on. -/
def parseFrom : List Char → HexState → CpuMask → Parsed
  | [], st, mask =>
    match endChunk st mask with
    | (mask, .error e) => (mask, some e)
    | (mask, .ok _) => (mask, none)
  | c :: buf, st, mask =>
    let oldC := st.c
    let st := { st with c := c }
    if isSpace c then parseFrom buf st mask
    else if st.totaldigits ≠ 0 ∧ c ≠ '\x00' ∧ isSpace oldC then (mask, none)
    else if c = '\x00' ∨ c = ',' then
      match endChunk st mask with
      | (mask, .error e) => (mask, some e)
      | (mask, .ok st) => if c = ',' ∧ !buf.isEmpty then parseFrom buf st mask else (mask, none)
    else if !isXDigit c then (mask, some .EINVAL)
    else if st.chunk ≥ 2 ^ (CHUNKSZ - 4) then (mask, some .EOVERFLOW)
    else
      parseFrom buf
        { st with
          chunk := st.chunk * 16 + unhex c
          ndigits := st.ndigits + 1, totaldigits := st.totaldigits + 1 } mask

/-- `__bitmap_parse` on a buffer of any content and size. -/
def bitmapParse (buf : List Char) : Parsed := parseFrom buf {} CPU_MASK_NONE

/-- `cpumask_parse_user(buf, strlen(buf), maskp)`. -/
def cpumaskParseUser (buf : List Char) : Parsed := parseFrom (CText.cString buf) {} CPU_MASK_NONE

end Irqbalance
