import Irqbalance.Lib.Words
import Irqbalance.Model.Bitmap

/-! # Masks as arrays of words

The printer and the parser of `bitmap.c` on the array that a `cpumask_t` is, with the shift that
works in place. `Model.Bitmap` has them on bit vectors.
-/

namespace Irqbalance

/-- `BITS_PER_LONG`. -/
abbrev BITS_PER_LONG : ℕ := 64

/-- `unsigned long *`. -/
abbrev Bitmap := ℕ → BitVec BITS_PER_LONG

/-- `BITS_TO_LONGS`. -/
def bitsToLongs (bits : ℕ) : ℕ := (bits + BITS_PER_LONG - 1) / BITS_PER_LONG

/-- `(1UL << left) - 1`. -/
def lowBits (left : ℕ) : BitVec BITS_PER_LONG := BitVec.ofNat BITS_PER_LONG (2 ^ left - 1)

/-- What `__bitmap_shift_left` makes of the word `k` of `src`. -/
def shiftLeftWord (shift bits : ℕ) (src : Bitmap) (k : ℕ) : BitVec BITS_PER_LONG :=
  let lim := bitsToLongs bits
  let left := bits % BITS_PER_LONG
  let off := shift / BITS_PER_LONG
  let rem := shift % BITS_PER_LONG
  -- the upper bits of the word below become the lower ones of the result
  let lower := if rem ≠ 0 ∧ k > 0 then src (k - 1) else 0
  let upper := if left ≠ 0 ∧ k = lim - 1 then src k &&& lowBits left else src k
  let word := lower >>> (BITS_PER_LONG - rem) ||| upper <<< rem
  if left ≠ 0 ∧ k + off = lim - 1 then word &&& lowBits left else word

/-- `__bitmap_shift_left(maskp, maskp, shift, bits)`. -/
def bitmapShiftLeft (shift bits : ℕ) (maskp : Bitmap) : Bitmap :=
  let off := shift / BITS_PER_LONG
  let maskp := Words.moveUp (shiftLeftWord shift bits) off (bitsToLongs bits - off) maskp
  fun k => if k < off then 0 else maskp k

/-- `__bitmap_equal`. -/
def bitmapEqual (bits : ℕ) (bitmap1 bitmap2 : Bitmap) : Bool :=
  let lim := bits / BITS_PER_LONG
  decide (∀ k < lim, bitmap1 k = bitmap2 k) &&
    (bits % BITS_PER_LONG == 0 ||
      (bitmap1 lim ^^^ bitmap2 lim) &&& lowBits (bits % BITS_PER_LONG) == 0)

/-- One round of `bitmap_scnprintf`. -/
def bitmapPrintChunk (buflen : ℕ) (maskp : Bitmap) (k : ℕ) (p : Printing) : Printing :=
  let word := CHUNKSZ * k / BITS_PER_LONG
  let bit := CHUNKSZ * k % BITS_PER_LONG
  let val := (maskp word >>> bit &&& lowBits CHUNKSZ).toNat
  if val ≠ 0 ∨ p.first = false ∨ k = 0 then
    let chunk := (if p.first then [] else [',']) ++ showHex ((CHUNKSZ + 3) / 4) val
    { text := (p.text ++ chunk).take (buflen - 1)
      len := p.len + chunk.length
      sizes := p.sizes ++ [(buflen : ℤ) - p.len]
      first := false }
  else p

/-- The loop of `bitmap_scnprintf`. -/
def bitmapPrintChunks (buflen : ℕ) (maskp : Bitmap) : ℕ → Printing → Printing
  | 0, p => p
  | k + 1, p => bitmapPrintChunks buflen maskp k (bitmapPrintChunk buflen maskp k p)

/-- `bitmap_scnprintf(buf, buflen, maskp, NR_CPUS)`. -/
def bitmapScnprintf (buflen : ℕ) (maskp : Bitmap) : Printing :=
  bitmapPrintChunks buflen maskp (NR_CPUS / CHUNKSZ) {}

/-- The shift by a chunk, and `*maskp |= chunk`. -/
def appendChunk (chunk : ℕ) (maskp : Bitmap) : Bitmap :=
  let maskp := bitmapShiftLeft CHUNKSZ NR_CPUS maskp
  Function.update maskp 0 (maskp 0 ||| BitVec.ofNat BITS_PER_LONG chunk)

/-- The end of a chunk in `__bitmap_parse`. -/
def bitmapEndChunk (st : HexState) (maskp : Bitmap) : Bitmap × Except ParseError HexState :=
  if st.ndigits = 0 then (maskp, .error .EINVAL)
  else if st.nchunks = 0 ∧ st.chunk = 0 then (maskp, .ok { st with ndigits := 0 })
  else
    let maskp := appendChunk st.chunk maskp
    let nbits := st.nbits + if st.nchunks = 0 then fls st.chunk else CHUNKSZ
    if nbits > NR_CPUS then (maskp, .error .EOVERFLOW)
    else (maskp, .ok
      { st with chunk := 0, ndigits := 0, nchunks := st.nchunks + 1, nbits := nbits })

/-- `__bitmap_parse` from the middle of a chunk on. -/
def bitmapParseFrom : List Char → HexState → Bitmap → Bitmap × Option ParseError
  | [], st, maskp =>
    match bitmapEndChunk st maskp with
    | (maskp, .error e) => (maskp, some e)
    | (maskp, .ok _) => (maskp, none)
  | c :: buf, st, maskp =>
    let oldC := st.c
    let st := { st with c := c }
    if CText.isSpace c then bitmapParseFrom buf st maskp
    else if st.totaldigits ≠ 0 ∧ c ≠ '\x00' ∧ CText.isSpace oldC then (maskp, none)
    else if c = '\x00' ∨ c = ',' then
      match bitmapEndChunk st maskp with
      | (maskp, .error e) => (maskp, some e)
      | (maskp, .ok st) =>
        if c = ',' ∧ !buf.isEmpty then bitmapParseFrom buf st maskp else (maskp, none)
    else if !isXDigit c then (maskp, some .EINVAL)
    else if st.chunk ≥ 2 ^ (CHUNKSZ - 4) then (maskp, some .EOVERFLOW)
    else
      bitmapParseFrom buf
        { st with
          chunk := st.chunk * 16 + unhex c
          ndigits := st.ndigits + 1, totaldigits := st.totaldigits + 1 } maskp

/-- `get_mask_from_bitmap`: `bitmap_parse(line, strlen(line), mask, NR_CPUS)`. -/
def getMaskFromBitmap (line : List Char) : Bitmap × Option ParseError :=
  bitmapParseFrom (CText.cString line) {} fun _ => 0

/-- `check_affinity` on the line that has been read from `smp_affinity`. -/
def checkAffinityLine (line : List Char) (appliedMask : Bitmap) : Bool :=
  bitmapEqual NR_CPUS appliedMask (getMaskFromBitmap line).1

end Irqbalance
