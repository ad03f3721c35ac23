import Irqbalance.Model.Activate

/-! # The loads of objects and interrupts

`parse_proc_stat`: the load of each CPU comes from its line, that of the objects above is added up, and
a share of it is attributed to each interrupt. A division by zero ends the process, and so does a
recursion that does not end; both are `none` here.
-/

namespace Irqbalance

/-- `set_load`; `accumulate_load` adds one child. -/
def setLoad : ℕ → ObjRef → State → Option State
  | 0, _, _ => none
  | fuel + 1, d, s =>
    if (s.objs d).children.length > 0 then do
      let s ← tryForEach (s.objs d).children (setLoad fuel) s
      let s := s.setObj d { s.objs d with load := 0 }
      some (forEach (s.objs d).children (fun c s =>
        s.setObj d { s.objs d with load := u64 ((s.objs d).load + (s.objs c).load) }) s)
    else some s

/-- `accumulate_irq_count`. -/
def accumulateIrqCount (s : State) (info : IrqRef) (acc : ℕ) : ℕ :=
  u64 (acc + u64Sub (s.irqs info).irqCount (s.irqs info).lastIrqCount)

/-- `accumulate_interrupts`. -/
def accumulateInterrupts : ℕ → ObjRef → State → Option State
  | 0, _, _ => none
  | fuel + 1, d, s => do
    let s ← tryForEach (s.objs d).children (accumulateInterrupts fuel) s
    let irqCount := forEach (s.objs d).interrupts (accumulateIrqCount s) 0
    some (s.setObj d { s.objs d with irqCount := irqCount })

/-- A division. -/
def u64Div (a b : ℕ) : Option ℕ := if b = 0 then none else some (a / b)

/-- `get_parent_branch_irq_count_share`. -/
def getParentBranchIrqCountShare (s : State) : ℕ → ObjRef → Option ℕ
  | 0, _ => none
  | fuel + 1, d => do
    let totalIrqCount ← match (s.objs d).parent with
      | none => some 0
      | some p => do
        let total ← getParentBranchIrqCountShare s fuel p
        u64Div total (s.objs p).children.length
    some (u64 (totalIrqCount + (s.objs d).irqCount))

/-- `get_children_branch_irq_count`. -/
def getChildrenBranchIrqCount (s : State) : ℕ → ObjRef → ℕ → Option ℕ
  | 0, _, _ => none
  | fuel + 1, d, totalIrqCount => do
    let total ← tryForEach (s.objs d).children (getChildrenBranchIrqCount s fuel) totalIrqCount
    some (u64 (total + (s.objs d).irqCount))

/-- `assign_load_slice`. -/
def assignLoadSlice (loadSlice : ℕ) (info : IrqRef) (s : State) : State :=
  let load := u64 (u64Sub (s.irqs info).irqCount (s.irqs info).lastIrqCount * loadSlice)
  -- every IRQ has at least a load of 1
  s.setIrq info { s.irqs info with load := if load = 0 then load + 1 else load }

/-- `compute_irq_branch_load_share`. -/
def computeIrqBranchLoadShare (fuel : ℕ) (d : ObjRef) (s : State) : Option State :=
  if (s.objs d).interrupts.length > 0 then do
    let share ← getParentBranchIrqCountShare s fuel d
    let localIrqCounts ← tryForEach (s.objs d).children (getChildrenBranchIrqCount s fuel) share
    let loadSlice ← if localIrqCounts ≠ 0 then u64Div (s.objs d).load localIrqCounts else some 1
    some (forEach (s.objs d).interrupts (assignLoadSlice loadSlice) s)
  else some s

/-- The passes at the end of `parse_proc_stat`. -/
def attributeLoads (fuel : ℕ) (s : State) : Option State := do
  let s ← tryForEach s.numaNodes (setLoad fuel) s
  let s ← tryForEach s.numaNodes (accumulateInterrupts fuel) s
  let s ← tryForEach s.cpus (computeIrqBranchLoadShare fuel) s
  let s ← tryForEach s.cacheDomains (computeIrqBranchLoadShare fuel) s
  let s ← tryForEach s.packages (computeIrqBranchLoadShare fuel) s
  tryForEach s.numaNodes (computeIrqBranchLoadShare fuel) s

/-- `find_cpu_core`. -/
def findCpuCore (cpunr : ℕ) (s : State) : Option ObjRef := s.cpus.find? fun o => (s.objs o).number == cpunr

/-- A line of /proc/stat with `cpu` in it: its number, and the times in interrupts if it has them. -/
structure StatLine where
  cpunr : ℕ
  loads : Option (ℕ × ℕ)

/-- The loop of `parse_proc_stat`, with the count of the CPUs that it has read. The conversion of jiffies to
nanoseconds is one of doubles. -/
def readCpuLoads (nanoseconds : ℕ → ℕ) : List StatLine → ℕ → State → ℕ × State
  | [], cpucount, s => (cpucount, s)
  | line :: rest, cpucount, s =>
    if cpuIsset line.cpunr s.bannedCpus then readCpuLoads nanoseconds rest cpucount s else
    match line.loads with
    | none => (cpucount, s)
    | some (irqLoad, softirqLoad) =>
      match findCpuCore line.cpunr s with
      | none => (cpucount, s)
      | some cpu =>
        let lastLoad := u64 (irqLoad + softirqLoad)
        let obj := s.objs cpu
        let load := if s.cycleCount ≠ 0 then u64 (nanoseconds (u64Sub lastLoad obj.lastLoad)) else obj.load
        readCpuLoads nanoseconds rest (cpucount + 1)
          (s.setObj cpu { obj with load := load, lastLoad := lastLoad })

/-- `parse_proc_stat` once /proc/stat has been opened and its header read. -/
def parseProcStatLines (nanoseconds : ℕ → ℕ) (fuel : ℕ) (lines : List StatLine) (s : State) : Option State :=
  let (cpucount, s) := readCpuLoads nanoseconds lines 0 s
  -- didn't collect load info for all cpus
  if cpucount ≠ s.cpus.length then some s else attributeLoads fuel s

end Irqbalance
