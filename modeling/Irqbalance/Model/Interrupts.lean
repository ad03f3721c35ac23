import Irqbalance.Model.Scan

/-! # The text of /proc/interrupts

`parse_proc_interrupts` over the characters of the file, with `init_irq_class_and_type` as compiled for
x86. The flags that only decide about a warning are left out. Allocation succeeds.
-/

namespace Irqbalance

open CText

variable (env : Env)

/-- `IRQ_TYPE_VIRT_EVENT` and `IRQ_VIRT_EVENT`. -/
def IRQ_TYPE_VIRT_EVENT : ℤ := 3
def IRQ_VIRT_EVENT : ℤ := 7

/-- `PATH_MAX`. -/
def PATH_MAX : ℕ := 4096

/-- `init_irq_class_and_type`: `irq_name` runs over all words but the last, which becomes the name. A
line of one word has no last token, which `snprintf` prints as `(null)`. -/
def initIrqClassAndType (savedline : List Char) (irq : ℤ) : IrqHint :=
  let (irqNames, lastToken) := match tokens savedline with
    | [word] => ([word], "(null)".toList)
    | words => (words.dropLast, words.getLastD [])
  let isXenDyn := irqNames.any fun word => decide ("xen-dyn".toList <:+: word)
  let virtEvent := irqNames.getLast?.any (fun word => decide ("-event".toList <:+: word)) && isXenDyn
  { irq := irq
    type := if virtEvent then IRQ_TYPE_VIRT_EVENT else IRQ_TYPE_LEGACY
    irqClass := if virtEvent then IRQ_VIRT_EVENT else IRQ_OTHER
    name := some (lastToken.take (PATH_MAX - 1)) }

/-- `strchr(" \t", *c2)`, which finds the terminating NUL as well. -/
def endsColumn (c2 : List Char) : Bool := c2.head?.all isBlank

/-- The numbers that the loop over the columns adds up. -/
def readColumns : ℕ → List Char → List ℕ
  | 0, _ => []
  | fuel + 1, c =>
    let (count, c2) := strtoul c
    -- end of numbers
    if c2.length = c.length ∨ endsColumn c2 = false then [] else count :: readColumns fuel c2

/-- The loop of `parse_proc_interrupts`, from the text: the state, and whether it raises `need_rescan`. -/
def parseProcText (src : IrqSources) : List (List Char) → State → State × Bool
  | [], s => (s, false)
  | line :: rest, s =>
    let line := cString line
    -- lines with letters in front are special, like NMI count
    if !(line.dropWhile isBlank).head?.any Char.isDigit then (s, false) else
    if ':' ∉ line then parseProcText src rest s else
    let number := toInt (strtoul (line.takeWhile (· != ':'))).1
    let c := (line.dropWhile (· != ':')).tail
    let s := if (getIrqInfo number s).isSome then s
      else procIrqHotplug env src (initIrqClassAndType line number) s
    match getIrqInfo number s with
    | none => (s, true)
    | some info =>
      let s := s.setIrq info { s.irqs info with existing := true }
      let counts := readColumns c.length c
      if counts.length ≠ cpusWeight s.cpuOnlineMap then (s, true) else
      let count := u64 counts.sum
      -- removed and inserted again
      if count < (s.irqs info).irqCount then (s, true) else
      let entry := s.irqs info
      parseProcText src rest (s.setIrq info { entry with lastIrqCount := entry.irqCount, irqCount := count })

/-- `parse_proc_interrupts`, from the text. -/
def parseProcInterruptsText (src : IrqSources) (text : List Char) (d : Daemon) : Daemon :=
  match getLines text with
  | [] => d
  | _ :: lines =>
    let (s, raised) := parseProcText env src lines d.globals
    let needRescan := d.settings.needRescan || raised
    { d with
      state := if needRescan then s else clearNoExistingIrqs s
      settings := { d.settings with needRescan := needRescan } }

end Irqbalance
