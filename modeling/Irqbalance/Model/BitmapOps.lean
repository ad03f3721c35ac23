import Irqbalance.Lib.WordStore
import Irqbalance.Model.BitmapWords

/-! # The operations on bitmaps

The operations of bitmap.h, bitmap.c and non-atomic.h on variables that hold arrays of words; source and destination
may be the same variable. Up to `BITS_PER_LONG` bits they work on the first word alone. Nothing checks that a
shift count is below the number of bits, so it is a hypothesis of what is proved.
-/

namespace Irqbalance

open Words

variable {ρ : Type*} [DecidableEq ρ]

/-- Variables that hold bitmaps. -/
abbrev Bitmaps (ρ : Type*) := ρ → Bitmap

/-- `BITMAP_LAST_WORD_MASK`. -/
def BITMAP_LAST_WORD_MASK (nbits : ℕ) : BitVec BITS_PER_LONG :=
  if nbits % BITS_PER_LONG ≠ 0 then lowBits (nbits % BITS_PER_LONG) else BitVec.allOnes BITS_PER_LONG

/-- `hweight64`. -/
def hweight64 (w : BitVec 64) : ℕ :=
  let w := w - (w >>> 1 &&& 0x5555555555555555#64)
  let w := (w &&& 0x3333333333333333#64) + (w >>> 2 &&& 0x3333333333333333#64)
  let w := w + w >>> 4 &&& 0x0f0f0f0f0f0f0f0f#64
  ((w * 0x0101010101010101#64) >>> 56).toNat

section Words

variable (bits : ℕ) (bitmap bitmap1 bitmap2 : Bitmap)

/-- `__bitmap_empty`. -/
def bitmapEmptyWords : Bool :=
  let lim := bits / BITS_PER_LONG
  decide (∀ k < lim, bitmap k = 0) &&
    (bits % BITS_PER_LONG == 0 || bitmap lim &&& BITMAP_LAST_WORD_MASK bits == 0)

/-- `__bitmap_full`. -/
def bitmapFullWords : Bool :=
  let lim := bits / BITS_PER_LONG
  decide (∀ k < lim, ~~~bitmap k = 0) &&
    (bits % BITS_PER_LONG == 0 || ~~~bitmap lim &&& BITMAP_LAST_WORD_MASK bits == 0)

/-- `__bitmap_intersects`. -/
def bitmapIntersectsWords : Bool :=
  let lim := bits / BITS_PER_LONG
  decide (∃ k < lim, bitmap1 k &&& bitmap2 k ≠ 0) ||
    (bits % BITS_PER_LONG != 0 && bitmap1 lim &&& bitmap2 lim &&& BITMAP_LAST_WORD_MASK bits != 0)

/-- `__bitmap_weight`. -/
def bitmapWeightWords : ℕ :=
  let lim := bits / BITS_PER_LONG
  let w := ((List.range lim).map fun k => hweight64 (bitmap k)).sum
  if bits % BITS_PER_LONG ≠ 0 then w + hweight64 (bitmap lim &&& BITMAP_LAST_WORD_MASK bits) else w

/-- What `__bitmap_shift_right` stores in the word `k`. -/
def shiftRightWord (shift : ℕ) (src : Bitmap) (k : ℕ) : BitVec BITS_PER_LONG :=
  let lim := bitsToLongs bits
  let left := bits % BITS_PER_LONG
  let off := shift / BITS_PER_LONG
  let rem := shift % BITS_PER_LONG
  let mask := lowBits left
  -- the lower bits of the word above become the upper ones of the result
  let upper :=
    if rem = 0 ∨ off + k + 1 ≥ lim then 0
    else if off + k + 1 = lim - 1 ∧ left ≠ 0 then src (off + k + 1) &&& mask
    else src (off + k + 1)
  let lower := if left ≠ 0 ∧ off + k = lim - 1 then src (off + k) &&& mask else src (off + k)
  let word := upper <<< (BITS_PER_LONG - rem) ||| lower >>> rem
  if left ≠ 0 ∧ k = lim - 1 then word &&& mask else word

end Words

section Stores

variable (nbits : ℕ) (dst : ρ)

/-- Below `BITS_PER_LONG` an operation on the first word, above it a loop over all words. -/
def eachWord (word : Bitmaps ρ → ℕ → BitVec BITS_PER_LONG) (s : Bitmaps ρ) : Bitmaps ρ :=
  if nbits ≤ BITS_PER_LONG then put dst 0 (word s 0) s else ascend dst word (bitsToLongs nbits) s

/-- `bitmap_zero`. -/
def bitmapZero (s : Bitmaps ρ) : Bitmaps ρ :=
  if nbits ≤ BITS_PER_LONG then put dst 0 0 s else setWords dst 0 (bitsToLongs nbits) 0 s

/-- `bitmap_fill`. -/
def bitmapFill (s : Bitmaps ρ) : Bitmaps ρ :=
  let nlongs := bitsToLongs nbits
  let s := if nlongs > 1 then setWords dst 0 (nlongs - 1) (BitVec.allOnes BITS_PER_LONG) s else s
  put dst (nlongs - 1) (BITMAP_LAST_WORD_MASK nbits) s

/-- `bitmap_copy`. -/
def bitmapCopy (src : ρ) : Bitmaps ρ → Bitmaps ρ := eachWord nbits dst fun s k => s src k

/-- `bitmap_and`. -/
def bitmapAnd (src1 src2 : ρ) : Bitmaps ρ → Bitmaps ρ := eachWord nbits dst fun s k => s src1 k &&& s src2 k

/-- `bitmap_or`. -/
def bitmapOr (src1 src2 : ρ) : Bitmaps ρ → Bitmaps ρ := eachWord nbits dst fun s k => s src1 k ||| s src2 k

/-- `bitmap_xor`. -/
def bitmapXor (src1 src2 : ρ) : Bitmaps ρ → Bitmaps ρ := eachWord nbits dst fun s k => s src1 k ^^^ s src2 k

/-- `bitmap_andnot`. -/
def bitmapAndnot (src1 src2 : ρ) : Bitmaps ρ → Bitmaps ρ :=
  eachWord nbits dst fun s k => s src1 k &&& ~~~s src2 k

/-- `bitmap_complement`. -/
def bitmapComplement (src : ρ) (s : Bitmaps ρ) : Bitmaps ρ :=
  if nbits ≤ BITS_PER_LONG then put dst 0 (~~~s src 0 &&& BITMAP_LAST_WORD_MASK nbits) s
  else
    let lim := nbits / BITS_PER_LONG
    let s := ascend dst (fun s k => ~~~s src k) lim s
    if nbits % BITS_PER_LONG ≠ 0 then put dst lim (~~~s src lim &&& BITMAP_LAST_WORD_MASK nbits) s else s

/-- `bitmap_shift_right`. -/
def bitmapShiftRight (src : ρ) (n : ℕ) (s : Bitmaps ρ) : Bitmaps ρ :=
  if nbits ≤ BITS_PER_LONG then put dst 0 (s src 0 >>> n) s
  else
    let lim := bitsToLongs nbits
    let off := n / BITS_PER_LONG
    let s := ascend dst (fun s => shiftRightWord nbits n (s src)) (lim - off) s
    setWords dst (lim - off) off 0 s

/-- `bitmap_shift_left`. -/
def bitmapShiftLeftInto (src : ρ) (n : ℕ) (s : Bitmaps ρ) : Bitmaps ρ :=
  if nbits ≤ BITS_PER_LONG then put dst 0 (s src 0 <<< n &&& BITMAP_LAST_WORD_MASK nbits) s
  else
    let off := n / BITS_PER_LONG
    let s := descend dst (fun s => shiftLeftWord n nbits (s src)) off (bitsToLongs nbits - off) s
    setWords dst 0 off 0 s

end Stores

section Tests

variable (nbits : ℕ) (src src1 src2 : Bitmap)

/-- `bitmap_empty`. -/
def bitmapEmpty : Bool :=
  if nbits ≤ BITS_PER_LONG then src 0 &&& BITMAP_LAST_WORD_MASK nbits == 0 else bitmapEmptyWords nbits src

/-- `bitmap_full`. -/
def bitmapFull : Bool :=
  if nbits ≤ BITS_PER_LONG then ~~~src 0 &&& BITMAP_LAST_WORD_MASK nbits == 0 else bitmapFullWords nbits src

/-- `bitmap_equal`. -/
def bitmapEquals : Bool :=
  if nbits ≤ BITS_PER_LONG then (src1 0 ^^^ src2 0) &&& BITMAP_LAST_WORD_MASK nbits == 0
  else bitmapEqual nbits src1 src2

/-- `bitmap_intersects`. -/
def bitmapIntersects : Bool :=
  if nbits ≤ BITS_PER_LONG then src1 0 &&& src2 0 &&& BITMAP_LAST_WORD_MASK nbits != 0
  else bitmapIntersectsWords nbits src1 src2

/-- `bitmap_weight`. -/
def bitmapWeight : ℕ :=
  if nbits ≤ BITS_PER_LONG then hweight64 (src 0 &&& BITMAP_LAST_WORD_MASK nbits) else bitmapWeightWords nbits src

end Tests

section Bits

variable (nr : ℕ) (addr : ρ)

/-- `BITOP_MASK`. -/
def BITOP_MASK : BitVec BITS_PER_LONG := (1 : BitVec BITS_PER_LONG) <<< (nr % BITS_PER_LONG)

/-- `*p = op(*p, mask)` for the word `BITOP_WORD(nr)`. -/
def bitop (op : BitVec BITS_PER_LONG → BitVec BITS_PER_LONG → BitVec BITS_PER_LONG) (s : Bitmaps ρ) : Bitmaps ρ :=
  put addr (nr / BITS_PER_LONG) (op (s addr (nr / BITS_PER_LONG)) (BITOP_MASK nr)) s

/-- `set_bit`. -/
def setBitIn : Bitmaps ρ → Bitmaps ρ := bitop nr addr fun word mask => word ||| mask

/-- `clear_bit`. -/
def clearBitIn : Bitmaps ρ → Bitmaps ρ := bitop nr addr fun word mask => word &&& ~~~mask

/-- `__change_bit`. -/
def changeBitIn : Bitmaps ρ → Bitmaps ρ := bitop nr addr fun word mask => word ^^^ mask

/-- `(old & mask) != 0`. -/
def oldBit (s : Bitmaps ρ) : Bool := s addr (nr / BITS_PER_LONG) &&& BITOP_MASK nr != 0

/-- `test_bit`. -/
def testBitIn (s : Bitmaps ρ) : Bool :=
  1 &&& s addr (nr / BITS_PER_LONG) >>> (nr &&& (BITS_PER_LONG - 1)) == 1

end Bits

/-- A call of an operation on variables. -/
inductive BitmapOp (ρ : Type*) where
  | zero (dst : ρ)
  | fill (dst : ρ)
  | copy (dst src : ρ)
  | and (dst src1 src2 : ρ)
  | or (dst src1 src2 : ρ)
  | xor (dst src1 src2 : ρ)
  | andnot (dst src1 src2 : ρ)
  | complement (dst src : ρ)
  | shiftRight (dst src : ρ) (n : ℕ)
  | shiftLeft (dst src : ρ) (n : ℕ)
  | setBit (nr : ℕ) (addr : ρ)
  | clearBit (nr : ℕ) (addr : ρ)
  | changeBit (nr : ℕ) (addr : ρ)
  | testAndSetBit (nr : ℕ) (addr : ρ)
  | testAndClearBit (nr : ℕ) (addr : ρ)
  | testAndChangeBit (nr : ℕ) (addr : ρ)
  | testBit (nr : ℕ) (addr : ρ)
  | equal (src1 src2 : ρ)
  | intersects (src1 src2 : ρ)
  | empty (src : ρ)
  | full (src : ρ)
  | weight (src : ρ)
deriving DecidableEq, Repr

/-- The call on bitmaps of `nbits` bits, and what it returns. -/
def BitmapOp.exec (nbits : ℕ) (op : BitmapOp ρ) (s : Bitmaps ρ) : Bitmaps ρ × ℕ :=
  match op with
  | .zero dst => (bitmapZero nbits dst s, 0)
  | .fill dst => (bitmapFill nbits dst s, 0)
  | .copy dst src => (bitmapCopy nbits dst src s, 0)
  | .and dst src1 src2 => (bitmapAnd nbits dst src1 src2 s, 0)
  | .or dst src1 src2 => (bitmapOr nbits dst src1 src2 s, 0)
  | .xor dst src1 src2 => (bitmapXor nbits dst src1 src2 s, 0)
  | .andnot dst src1 src2 => (bitmapAndnot nbits dst src1 src2 s, 0)
  | .complement dst src => (bitmapComplement nbits dst src s, 0)
  | .shiftRight dst src n => (bitmapShiftRight nbits dst src n s, 0)
  | .shiftLeft dst src n => (bitmapShiftLeftInto nbits dst src n s, 0)
  | .setBit nr addr => (setBitIn nr addr s, 0)
  | .clearBit nr addr => (clearBitIn nr addr s, 0)
  | .changeBit nr addr => (changeBitIn nr addr s, 0)
  | .testAndSetBit nr addr => (setBitIn nr addr s, (oldBit nr addr s).toNat)
  | .testAndClearBit nr addr => (clearBitIn nr addr s, (oldBit nr addr s).toNat)
  | .testAndChangeBit nr addr => (changeBitIn nr addr s, (oldBit nr addr s).toNat)
  | .testBit nr addr => (s, (testBitIn nr addr s).toNat)
  | .equal src1 src2 => (s, (bitmapEquals nbits (s src1) (s src2)).toNat)
  | .intersects src1 src2 => (s, (bitmapIntersects nbits (s src1) (s src2)).toNat)
  | .empty src => (s, (bitmapEmpty nbits (s src)).toNat)
  | .full src => (s, (bitmapFull nbits (s src)).toNat)
  | .weight src => (s, bitmapWeight nbits (s src))

/-- Calls one after the other, with what they return. -/
def execAll (nbits : ℕ) : List (BitmapOp ρ) → Bitmaps ρ → Bitmaps ρ × List ℕ
  | [], s => (s, [])
  | op :: ops, s =>
    let (s, result) := op.exec nbits s
    let (s, results) := execAll nbits ops s
    (s, result :: results)

/-- What the call means for bit vectors. -/
def BitmapOp.mean {n : ℕ} (op : BitmapOp ρ) (x : ρ → BitVec n) : (ρ → BitVec n) × ℕ :=
  match op with
  | .zero dst => (Function.update x dst 0, 0)
  | .fill dst => (Function.update x dst (BitVec.allOnes n), 0)
  | .copy dst src => (Function.update x dst (x src), 0)
  | .and dst src1 src2 => (Function.update x dst (x src1 &&& x src2), 0)
  | .or dst src1 src2 => (Function.update x dst (x src1 ||| x src2), 0)
  | .xor dst src1 src2 => (Function.update x dst (x src1 ^^^ x src2), 0)
  | .andnot dst src1 src2 => (Function.update x dst (x src1 &&& ~~~x src2), 0)
  | .complement dst src => (Function.update x dst (~~~x src), 0)
  | .shiftRight dst src k => (Function.update x dst (x src >>> k), 0)
  | .shiftLeft dst src k => (Function.update x dst (x src <<< k), 0)
  | .setBit nr addr => (Function.update x addr (x addr ||| BitVec.twoPow n nr), 0)
  | .clearBit nr addr => (Function.update x addr (x addr &&& ~~~BitVec.twoPow n nr), 0)
  | .changeBit nr addr => (Function.update x addr (x addr ^^^ BitVec.twoPow n nr), 0)
  | .testAndSetBit nr addr =>
    (Function.update x addr (x addr ||| BitVec.twoPow n nr), ((x addr).getLsbD nr).toNat)
  | .testAndClearBit nr addr =>
    (Function.update x addr (x addr &&& ~~~BitVec.twoPow n nr), ((x addr).getLsbD nr).toNat)
  | .testAndChangeBit nr addr =>
    (Function.update x addr (x addr ^^^ BitVec.twoPow n nr), ((x addr).getLsbD nr).toNat)
  | .testBit nr addr => (x, ((x addr).getLsbD nr).toNat)
  | .equal src1 src2 => (x, (x src1 == x src2).toNat)
  | .intersects src1 src2 => (x, (x src1 &&& x src2 != 0).toNat)
  | .empty src => (x, (x src == 0).toNat)
  | .full src => (x, (x src == BitVec.allOnes n).toNat)
  | .weight src => (x, popcount n (x src).toNat)

/-- The calls one after the other, for bit vectors. -/
def meanAll {n : ℕ} : List (BitmapOp ρ) → (ρ → BitVec n) → (ρ → BitVec n) × List ℕ
  | [], x => (x, [])
  | op :: ops, x =>
    let (x, result) := op.mean x
    let (x, results) := meanAll ops x
    (x, result :: results)

end Irqbalance
