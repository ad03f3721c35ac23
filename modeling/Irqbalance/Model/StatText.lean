import Irqbalance.Lib.CText
import Irqbalance.Model.Load

/-! # The text of /proc/stat

`parse_proc_stat` over the characters of the file. The line of each CPU is scanned with `sscanf`; a number of a CPU
that is outside of the masks would be looked up behind them.
-/

namespace Irqbalance

open CText

/-- `%*s`. -/
def scanWord (s : List Char) : Option (List Char) :=
  let s := s.dropWhile isSpace
  if s.isEmpty then none else some (s.dropWhile fun c => !isSpace c)

/-- `%llu`. -/
def scanUnsigned (s : List Char) : Option (ℕ × List Char) := (scanNumber s).map fun _ => strtoul s

/-- `%*u`, several times. -/
def skipUnsigned : ℕ → List Char → Option (List Char)
  | 0, s => some s
  | n + 1, s => do
    let (_, s) ← scanUnsigned s
    skipUnsigned n s

/-- `sscanf(line, "%*s %*u %*u %*u %*u %*u %llu %llu", &irq_load, &softirq_load)`, when it returns 2. -/
def scanLoads (line : List Char) : Option (ℕ × ℕ) := do
  let s ← scanWord line
  let s ← skipUnsigned 5 s
  let (irqLoad, s) ← scanUnsigned s
  let (softirqLoad, _) ← scanUnsigned s
  some (irqLoad, softirqLoad)

/-- The loop of `parse_proc_stat`, from the text, with the count of the CPUs that it has read; `none` when a number is
outside of the masks. -/
def readStatText (nanoseconds : ℕ → ℕ) : List (List Char) → ℕ → State → Option (ℕ × State)
  | [], cpucount, s => some (cpucount, s)
  | line :: rest, cpucount, s =>
    let line := cString line
    if ¬ "cpu".toList <:+: line then some (cpucount, s) else
    let cpunr := toInt (strtoul (line.drop 3)).1
    if ¬ (0 ≤ cpunr ∧ cpunr < NR_CPUS) then none else
    if cpuIsset cpunr.toNat s.bannedCpus then readStatText nanoseconds rest cpucount s else
    match scanLoads line with
    | none => some (cpucount, s)
    | some (irqLoad, softirqLoad) =>
      match findCpuCore cpunr.toNat s with
      | none => some (cpucount, s)
      | some cpu =>
        let lastLoad := u64 (irqLoad + softirqLoad)
        let obj := s.objs cpu
        let load := if s.cycleCount ≠ 0 then u64 (nanoseconds (u64Sub lastLoad obj.lastLoad)) else obj.load
        readStatText nanoseconds rest (cpucount + 1)
          (s.setObj cpu { obj with load := load, lastLoad := lastLoad })

/-- `parse_proc_stat`, from the text. -/
def parseProcStatText (nanoseconds : ℕ → ℕ) (fuel : ℕ) (text : List Char) (s : State) : Option State :=
  match getLines text with
  | [] => some s
  | _ :: lines => do
    let (cpucount, s) ← readStatText nanoseconds lines 0 s
    -- didn't collect load info for all cpus
    if cpucount ≠ s.cpus.length then some s else attributeLoads fuel s

end Irqbalance
