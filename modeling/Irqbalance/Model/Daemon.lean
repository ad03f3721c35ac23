import Irqbalance.Model.Classify
import Irqbalance.Model.Placement
import Irqbalance.Model.Activate

/-! # Runs of the daemon

The operations of `main` and `scan`, in any order. `account` stands for everything that only
touches bookkeeping: loads and counters from /proc/stat and /proc/interrupts, `existing` marks,
`cycle_count` and the ban list that a socket message replaces.
-/

namespace Irqbalance

variable (env : Env)

/-- The bookkeeping of an object. -/
structure ObjStats where
  load : ℕ
  lastLoad : ℕ
  irqCount : ℕ

/-- The bookkeeping of an IRQ. -/
structure IrqStats where
  irqCount : ℕ
  lastIrqCount : ℕ
  load : ℕ
  existing : Bool

inductive Op where
  /-- A rescan finds this machine, these bans and these interrupts. -/
  | rebuild (m : Machine) (banned : CpuMask) (src : IrqSources)
  /-- `parse_proc_interrupts` meets a line with this irq number. -/
  | hotplug (src : IrqSources) (irq : ℕ) (hint : IrqHint)
  | clearNoExisting
  | updateMigrationStatus
  | calculatePlacement
  | activateMappings
  | account (objs : ObjRef → ObjStats) (irqs : IrqRef → IrqStats) (cycle : ℕ) (bans : List ℤ)

/-- `free_object_tree` and `build_object_tree`, then every IRQ is queued and every slot counter
cleared, as `main` and `scan` do. -/
def rebuild (m : Machine) (banned : CpuMask) (src : IrqSources) (s : State) : State :=
  let s := freeIrqDb (freeTopology s)
  let s := buildNumaNodeList env m s
  let s := parseCpuTree env m banned s
  let s := rebuildIrqDb env src s
  let s := forEach s.interruptsDb forceRebalanceIrq s
  clearSlots s

/-- Replace all bookkeeping. -/
def account (objs : ObjRef → ObjStats) (irqs : IrqRef → IrqStats) (cycle : ℕ) (bans : List ℤ)
    (s : State) : State :=
  { s with
    objs := fun o => { s.objs o with
      load := (objs o).load, lastLoad := (objs o).lastLoad, irqCount := (objs o).irqCount }
    irqs := fun i => { s.irqs i with
      irqCount := (irqs i).irqCount, lastIrqCount := (irqs i).lastIrqCount
      load := (irqs i).load, existing := (irqs i).existing }
    cycleCount := cycle
    clBannedIrqs := bans }

/-- One operation of the daemon. -/
def step (s : State) : Op → State
  | .rebuild m banned src => rebuild env m banned src s
  | .hotplug src irq hint =>
    if (getIrqInfo irq s).isSome then s else procIrqHotplug env src { hint with irq := irq } s
  | .clearNoExisting => clearNoExistingIrqs s
  | .updateMigrationStatus => updateMigrationStatus env s
  | .calculatePlacement => calculatePlacement env s
  | .activateMappings => activateMappings env s
  | .account objs irqs cycle bans => account objs irqs cycle bans s

/-- A run from the state in which the process starts. -/
def run (s : State) (ops : List Op) : State := ops.foldl (step env) s

end Irqbalance
