import Irqbalance.Lib.Walk
import Mathlib.Logic.Function.Basic
import Mathlib.Data.BitVec

/-! # Objects, interrupts and the daemon's state

The records of types.h with the fields the modelled functions read, and one record for the
daemon's globals. Pointers are references into two heaps; freed records simply stop being
referenced. Machine words are naturals reduced explicitly where the source can wrap.
Everything outside the process that the code consults (sysfs, the clock-free kernel replies,
floating-point comparisons, heap addresses) comes in through `Env` or as an operation's input.
-/

namespace Irqbalance

/-- `NR_CPUS` of cpumask.h. -/
abbrev NR_CPUS : ℕ := 4096

/-- `cpumask_t`, with bit `i` of the bitmap as bit `i`. -/
abbrev CpuMask := BitVec NR_CPUS

/-- `CPU_MASK_NONE`. -/
abbrev CPU_MASK_NONE : CpuMask := BitVec.ofNat NR_CPUS 0

/-- `cpus_intersects`. -/
def cpusIntersects (a b : CpuMask) : Bool := a &&& b != CPU_MASK_NONE

/-- `cpu_isset`. -/
def cpuIsset (cpu : ℕ) (m : CpuMask) : Bool := m.getLsbD cpu

/-- `cpumask_of_cpu`: one `cpu_set` on an empty mask. -/
def cpumaskOfCpu (cpu : ℕ) : CpuMask := BitVec.ofNat NR_CPUS (2 ^ cpu)

/-- Set bits among the lowest `fuel`; a zero rest has none. -/
def popcount : ℕ → ℕ → ℕ
  | 0, _ => 0
  | fuel + 1, n => if n = 0 then 0 else n % 2 + popcount fuel (n / 2)

/-- `cpus_weight`. -/
def cpusWeight (m : CpuMask) : ℕ := popcount NR_CPUS m.toNat

/-- Reduction of a `uint64_t` result. -/
def u64 (n : ℕ) : ℕ := n % 2 ^ 64

/-- `a - b` on `uint64_t` operands. -/
def u64Sub (a b : ℕ) : ℕ := (a + 2 ^ 64 - b) % 2 ^ 64

/-- `INT_MAX`, the value of an unprobed `slots_left`. -/
def INT_MAX : ℤ := 2147483647

abbrev ObjRef := ℕ
abbrev IrqRef := ℕ

/-- `enum obj_type_e`. -/
inductive ObjType where
  | cpu
  | cache
  | package
  | node
deriving DecidableEq, Repr

/-- The numeric value of the enumeration, as printed and compared by the UI. -/
def ObjType.toNat : ObjType → ℕ
  | .cpu => 0
  | .cache => 1
  | .package => 2
  | .node => 3

/-- `BALANCE_NONE` to `BALANCE_CORE`. -/
inductive Level where
  | none
  | package
  | cache
  | core
deriving DecidableEq, Repr

/-- `NUMA_NO_NODE`. -/
def NUMA_NO_NODE : ℤ := -1

/-- `struct topo_obj`; the defaults are the zeroes of `calloc`. -/
structure TopoObj where
  load : ℕ := 0
  lastLoad : ℕ := 0
  irqCount : ℕ := 0
  objType : ObjType := .cpu
  number : ℤ := 0
  powersaveMode : Bool := false
  mask : CpuMask := CPU_MASK_NONE
  interrupts : List IrqRef := []
  parent : Option ObjRef := none
  children : List ObjRef := []
  numaNodes : List ObjRef := []
  slotsLeft : ℤ := 0

/-- `struct irq_info`; the defaults are the zeroes of `calloc`. -/
structure IrqInfo where
  irq : ℤ := 0
  irqClass : ℤ := 0
  type : ℤ := 0
  level : Level := .none
  banned : Bool := false
  numaNode : Option ObjRef := none
  irqCount : ℕ := 0
  lastIrqCount : ℕ := 0
  load : ℕ := 0
  moved : Bool := false
  existing : Bool := false
  assignedObj : Option ObjRef := none

/-- The `errno` values that `activate_mapping` tells apart. -/
inductive Errno where
  | EAGAIN
  | EBUSY
  | EINVAL
  | ERANGE
  | ENOMEM
  | ENOSPC
  | EIO
  | EPERM
  | other (code : ℕ)
deriving DecidableEq, Repr

/-- How the kernel answers one attempt to write an `smp_affinity` file. A failing `fclose`
reports its error after the flushed write has already taken effect. -/
inductive WriteResult where
  | ok
  | openError (e : Errno)
  | writeError (e : Errno)
  | closeError (e : Errno)
deriving DecidableEq, Repr

/-- The mask reaches the kernel. -/
def WriteResult.accepted : WriteResult → Bool
  | .ok => true
  | .closeError _ => true
  | _ => false

/-- The command line, and the answers of everything the daemon cannot compute itself. -/
structure Env where
  numaAvail : Bool := false
  /-- `power_thresh`, with `none` for `ULONG_MAX`. -/
  powerThresh : Option ℕ := none
  migrateRatio : ℕ := 0
  deepestCache : ℕ := 2
  /-- The heap address of an `irq_info`, the last tie break of `sort_irqs`. -/
  addr : IrqRef → ℕ := id
  /-- `(load + std_deviation) <= avg_load` in `long double`, from load, variance and average. -/
  underAverage : ℕ → ℕ → ℕ → Bool := fun _ _ _ => false
  /-- `(load - std_deviation) >= avg_load` in `long double`, from load, variance and average. -/
  overAverage : ℕ → ℕ → ℕ → Bool := fun _ _ _ => false
  /-- Whether the n-th access to procfs, if it is a read, succeeds. -/
  readable : ℕ → Bool := fun _ => true
  /-- The answer to the n-th access to procfs, if it is a write. -/
  write : ℕ → WriteResult := fun _ => .ok

/-- A mask handed to `/proc/irq/N/smp_affinity`. -/
structure AffinityWrite where
  irq : ℤ
  mask : CpuMask
deriving DecidableEq, Repr

/-- The globals of the daemon, with the kernel's affinity masks and the history of writes. -/
structure State where
  objs : ObjRef → TopoObj := fun _ => {}
  irqs : IrqRef → IrqInfo := fun _ => {}
  nextObj : ObjRef := 0
  nextIrq : IrqRef := 0
  numaNodes : List ObjRef := []
  packages : List ObjRef := []
  cacheDomains : List ObjRef := []
  cpus : List ObjRef := []
  interruptsDb : List IrqRef := []
  bannedIrqs : List IrqRef := []
  rebalanceIrqList : List IrqRef := []
  clBannedIrqs : List ℤ := []
  clBannedModules : List (List Char) := []
  bannedCpus : CpuMask := CPU_MASK_NONE
  unbannedCpus : CpuMask := CPU_MASK_NONE
  cpuOnlineMap : CpuMask := CPU_MASK_NONE
  cacheDomainCount : ℕ := 0
  cycleCount : ℕ := 0
  /-- The affinity mask the kernel keeps for each irq number. -/
  affinity : ℤ → CpuMask := fun _ => CPU_MASK_NONE
  /-- How often procfs has been accessed. -/
  clock : ℕ := 0
  writes : List AffinityWrite := []

namespace State

/-- Store back one object. -/
def setObj (s : State) (o : ObjRef) (obj : TopoObj) : State :=
  { s with objs := Function.update s.objs o obj }

/-- Store back one `irq_info`. -/
def setIrq (s : State) (i : IrqRef) (info : IrqInfo) : State :=
  { s with irqs := Function.update s.irqs i info }

/-- The interrupt list of an object, or `rebalance_irq_list` for the null object. -/
def irqList (s : State) : Option ObjRef → List IrqRef
  | none => s.rebalanceIrqList
  | some o => (s.objs o).interrupts

/-- Store back the list that `irqList` reads. -/
def setIrqList (s : State) (p : Option ObjRef) (l : List IrqRef) : State :=
  { s with
    rebalanceIrqList := if p = none then l else s.rebalanceIrqList
    objs := fun o => if p = some o then { s.objs o with interrupts := l } else s.objs o }

end State

end Irqbalance
