import Irqbalance.Lib.CText
import Irqbalance.Model.Activate
import Irqbalance.Model.Bitmap

/-! # The daemon's side of the socket

`get_irq_data`, `get_object_stat` and the message branches of `sock_handle`, for a message that was
received whole from a privileged user. Allocation succeeds. `sprintf` with a format of words and
numbers is the list of these words and numbers, each with the blank that follows it.
-/

namespace Irqbalance

open CText (showInt showNat spaced strtoul toInt tokens)

/-- `g_str_has_prefix`. -/
def hasPrefix (s p : List Char) : Bool := p.isPrefixOf s

/-- `sprintf` of `"IRQ %d LOAD %lu DIFF %lu CLASS %d "`. -/
def irqWords (irq : ℤ) (load diff : ℕ) (irqClass : ℤ) : List (List Char) :=
  ["IRQ".toList, showInt irq, "LOAD".toList, showNat load, "DIFF".toList, showNat diff,
    "CLASS".toList, showInt irqClass]

/-- `get_irq_data`, which appends to the text so far. -/
def getIrqData (info : IrqInfo) (text : List Char) : List Char :=
  text ++ spaced
    (irqWords info.irq info.load (u64Sub info.irqCount info.lastIrqCount) info.irqClass)

/-- `sprintf` of `"TYPE %d NUMBER %d LOAD %lu SAVE_MODE %d "`. -/
def objectWords (obj : TopoObj) : List (List Char) :=
  ["TYPE".toList, showNat obj.objType.toNat, "NUMBER".toList, showInt obj.number,
    "LOAD".toList, showNat obj.load, "SAVE_MODE".toList, showNat obj.powersaveMode.toNat]

/-- `get_object_stat`, which appends to the text so far, on a tree of at most `fuel` levels. -/
def getObjectStat (s : State) : ℕ → ObjRef → List Char → List Char
  | 0, _, stats => stats
  | fuel + 1, o, stats =>
    let irqData := forEach (s.objs o).interrupts (fun i => getIrqData (s.irqs i)) []
    let stats := stats ++ spaced (objectWords (s.objs o)) ++ irqData
    if (s.objs o).objType ≠ .cpu then forEach (s.objs o).children (getObjectStat s fuel) stats
    else stats

/-- The reply to `stats`. -/
def stats (s : State) : List Char := forEach s.numaNodes (getObjectStat s TREE_DEPTH) []

/-- The settings that the socket can change. -/
structure Settings where
  sleepInterval : ℤ
  clBannedIrqs : List ℤ := []
  /-- `banned_cpumask_from_ui`. -/
  bannedCpumaskFromUi : Option (List Char) := none
  needRescan : Bool := false
deriving DecidableEq, Repr

/-- `add_cl_banned_irq`. -/
def addClBannedIrq (irq : ℤ) (bans : List ℤ) : List ℤ := if irq ∈ bans then bans else bans ++ [irq]

/-- `do add_cl_banned_irq(irq); while ((irq = strtoul(end, &end, 10)))`. A number that is not 0
takes at least one character of the text, so that the text's length bounds the rounds. -/
def addBans : ℕ → ℤ → List Char → List ℤ → List ℤ
  | 0, _, _, bans => bans
  | fuel + 1, irq, rest, bans =>
    let bans := addClBannedIrq irq bans
    let next := strtoul rest
    if toInt next.1 = 0 then bans else addBans fuel (toInt next.1) next.2 bans

/-- The branches of `sock_handle` for a message that starts with `"settings "`. -/
def handleSettings (buff : List Char) (c : Settings) : Settings :=
  if hasPrefix buff "settings sleep ".toList then
    let interval := toInt (strtoul (buff.drop "settings sleep ".length)).1
    if interval ≥ 1 then { c with sleepInterval := interval } else c
  else if hasPrefix buff "settings ban irqs ".toList then
    let irqString := buff.drop "settings ban irqs ".length
    if hasPrefix irqString "NONE".toList then { c with clBannedIrqs := [], needRescan := true }
    else
      let first := strtoul irqString
      { c with
        clBannedIrqs := addBans (irqString.length + 1) (toInt first.1) first.2 []
        needRescan := true }
  else if hasPrefix buff "settings cpus ".toList then
    let fromUi := (tokens (buff.drop "settings cpus ".length)).head?
    { c with
      bannedCpumaskFromUi := fromUi.filter fun mask => !hasPrefix mask "NULL".toList
      needRescan := true }
  else c

/-- The `irq_info` that `add_banned_irq` allocates. -/
def bannedInfo (irq : ℤ) : IrqInfo := { irq := irq, banned := true }

/-- The reply to `setup`, and the printing of its mask. -/
def setup (c : Settings) (bannedCpus : CpuMask) : List Char × Printing :=
  let text := "SLEEP ".toList ++ showInt c.sleepInterval ++ [' ']
  let text := forEach (c.clBannedIrqs.map bannedInfo) getIrqData text
  let banned := cpumaskScnprintf 512 bannedCpus
  (text ++ "BANNED ".toList ++ banned.text, banned)

/-- `sock_handle` on one message: the new settings and the replies. -/
def sockHandle (s : State) (buff : List Char) (c : Settings) : Settings × List (List Char) :=
  let replies := if hasPrefix buff "stats".toList then [stats s] else []
  let c := if hasPrefix buff "settings ".toList then handleSettings buff c else c
  (c, if hasPrefix buff "setup".toList then replies ++ [(setup c s.bannedCpus).1] else replies)

end Irqbalance
