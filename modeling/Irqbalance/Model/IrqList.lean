import Irqbalance.Model.Types
import Mathlib.Data.List.Sort

/-! # Moving interrupts and selecting them for rebalancing

`migrate_irq` of classify.c with the functions of irqlist.c and `force_rebalance_irq` of
irqbalance.c. One function moves a link between two lists; everything else decides what to move.
-/

namespace Irqbalance

variable (env : Env)

/-- `compare_ints` finds equal irq numbers. -/
def sameIrq (s : State) (info other : IrqRef) : Bool := (s.irqs other).irq == (s.irqs info).irq

/-- `migrate_irq`: unlink the first entry with this irq number and append it to the other list. -/
def migrateIrq (src dst : Option ObjRef) (info : IrqRef) (s : State) : State :=
  match (s.irqList src).find? (sameIrq s info) with
  | none => s
  | some tmp =>
    let s := s.setIrqList src ((s.irqList src).eraseP (sameIrq s info))
    let s := s.setIrqList dst (s.irqList dst ++ [tmp])
    s.setIrq info { s.irqs info with moved := true }

/-- The source object regains a slot unless its slots were never probed. -/
def releaseSlot (obj : TopoObj) : TopoObj :=
  if obj.slotsLeft ≠ INT_MAX then { obj with slotsLeft := obj.slotsLeft + 1 } else obj

/-- The target object spends a slot unless its slots were never probed. -/
def takeSlot (obj : TopoObj) : TopoObj :=
  if obj.slotsLeft ≠ INT_MAX then { obj with slotsLeft := obj.slotsLeft - 1 } else obj

/-- `migrate_irq_obj`; the null object is `rebalance_irq_list`. -/
def migrateIrqObj (src dst : Option ObjRef) (info : IrqRef) (s : State) : State :=
  let src := if src.isNone then (s.irqs info).assignedObj else src
  let s := migrateIrq src dst info s
  -- `moved` stands in for "the link was found", also when an earlier move left it set
  if !(s.irqs info).moved then s else
  let s := match src with
    | some o => s.setObj o (releaseSlot (s.objs o))
    | none => s
  let s := match dst with
    | some o =>
      let obj := takeSlot (s.objs o)
      s.setObj o { obj with load := u64 (obj.load + u64 ((s.irqs info).load + 1)) }
    | none => s
  s.setIrq info { s.irqs info with assignedObj := dst }

/-- `force_rebalance_irq`. -/
def forceRebalanceIrq (info : IrqRef) (s : State) : State :=
  if (s.irqs info).level = .none then s else
  match (s.irqs info).assignedObj with
  | none => { s with rebalanceIrqList := s.rebalanceIrqList ++ [info] }
  | some o => migrateIrqObj (some o) none info s

/-- `sort_irqs(a, b) <= 0`: descending class, then descending load, then descending address. -/
def sortIrqsLe (s : State) (a b : IrqRef) : Bool :=
  if (s.irqs a).irqClass < (s.irqs b).irqClass then false
  else if (s.irqs b).irqClass < (s.irqs a).irqClass then true
  else if (s.irqs a).load < (s.irqs b).load then false
  else if (s.irqs b).load < (s.irqs a).load then true
  else !(decide (env.addr a < env.addr b))

/-- `sort_irq_list`; `g_list_sort` is a stable sort. -/
def sortIrqList (p : Option ObjRef) (s : State) : State :=
  s.setIrqList p ((s.irqList p).insertionSort fun a b => sortIrqsLe env s a b = true)

/-- `struct load_balance_info`; the standard deviation is a function of `deviations`. -/
structure LoadBalanceInfo where
  totalLoad : ℕ := 0
  avgLoad : ℕ := 0
  minLoad : ℕ := 0
  adjustmentLoad : ℕ := 0
  loadSources : ℕ := 0
  deviations : ℕ := 0
  numOver : ℕ := 0
  numUnder : ℕ := 0
  numPowersave : ℕ := 0
  powersave : Option ObjRef := none

/-- `gather_load_stats`. -/
def gatherLoadStats (obj : TopoObj) (info : LoadBalanceInfo) : LoadBalanceInfo :=
  { info with
    minLoad := if info.loadSources = 0 ∨ obj.load < info.minLoad then obj.load else info.minLoad
    totalLoad := u64 (info.totalLoad + obj.load)
    loadSources := info.loadSources + 1 }

/-- `compute_deviations`. -/
def computeDeviations (obj : TopoObj) (info : LoadBalanceInfo) : LoadBalanceInfo :=
  let deviation := if obj.load > info.avgLoad then u64Sub obj.load info.avgLoad
    else u64Sub info.avgLoad obj.load
  { info with deviations := u64 (info.deviations + u64 (deviation * deviation)) }

/-- `obj->load + info->std_deviation <= info->avg_load`. -/
def LoadBalanceInfo.under (info : LoadBalanceInfo) (obj : TopoObj) : Bool :=
  if info.loadSources = 1 then decide (obj.load ≤ info.avgLoad)
  else env.underAverage obj.load (info.deviations / (info.loadSources - 1)) info.avgLoad

/-- `obj->load - info->std_deviation >= info->avg_load`. -/
def LoadBalanceInfo.over (info : LoadBalanceInfo) (obj : TopoObj) : Bool :=
  if info.loadSources = 1 then decide (info.avgLoad ≤ obj.load)
  else env.overAverage obj.load (info.deviations / (info.loadSources - 1)) info.avgLoad

/-- `move_candidate_irqs`. -/
def moveCandidateIrqs (info : IrqRef) (acc : LoadBalanceInfo × State) : LoadBalanceInfo × State :=
  let (lb, s) := acc
  if (s.irqs info).level = .none then acc else
  -- a listed IRQ has an assigned object; the source dereferences it unchecked
  match (s.irqs info).assignedObj with
  | none => acc
  | some o =>
  if (s.objs o).interrupts.length ≤ 1 then acc else
  if (s.irqs info).load ≤ 1 then acc else
  let load := (s.irqs info).load
  let deltaLoad := if env.migrateRatio > 0
    then u64Sub lb.adjustmentLoad lb.minLoad / env.migrateRatio else 0
  if u64 (lb.minLoad + load) < u64 (deltaLoad + u64Sub lb.adjustmentLoad load) then
    let adjustmentLoad := u64Sub lb.adjustmentLoad load
    let minLoad := u64 (lb.minLoad + load)
    ({ lb with
        adjustmentLoad := adjustmentLoad
        minLoad := if minLoad > adjustmentLoad then adjustmentLoad else minLoad },
      forceRebalanceIrq info s)
  else acc

/-- The counters of `migrate_overloaded_irqs`, with the candidate for powersave mode. -/
def countOverUnder (o : ObjRef) (obj : TopoObj) (info : LoadBalanceInfo) : LoadBalanceInfo :=
  let info := if obj.powersaveMode then { info with numPowersave := info.numPowersave + 1 } else info
  if info.under env obj then
    { info with
      numUnder := info.numUnder + 1
      powersave := if env.powerThresh.isSome && info.powersave.isNone && !obj.powersaveMode
        then some o else info.powersave }
  else if info.over env obj then { info with numOver := info.numOver + 1 }
  else info

/-- `migrate_overloaded_irqs`. -/
def migrateOverloadedIrqs (o : ObjRef) (acc : LoadBalanceInfo × State) : LoadBalanceInfo × State :=
  let (info, s) := acc
  let info := countOverUnder env o (s.objs o) info
  if (s.objs o).load > info.minLoad ∧ (s.objs o).interrupts.length > 1 then
    let s := sortIrqList env (some o) s
    let info := { info with adjustmentLoad := (s.objs o).load }
    forEach (s.objs o).interrupts (moveCandidateIrqs env) (info, s)
  else (info, s)

/-- The statistics half of `find_overloaded_objs`. -/
def loadStats (objs : List ObjRef) (s : State) : LoadBalanceInfo :=
  let info := forEach objs (fun o => gatherLoadStats (s.objs o)) {}
  let info := { info with loadSources := if info.loadSources = 0 then 1 else info.loadSources }
  let info := { info with avgLoad := info.totalLoad / info.loadSources }
  forEach objs (fun o => computeDeviations (s.objs o)) info

/-- `find_overloaded_objs`. -/
def findOverloadedObjs (objs : List ObjRef) (s : State) : LoadBalanceInfo × State :=
  forEach objs (migrateOverloadedIrqs env) (loadStats objs s, s)

/-- `powersave_mode` of one object. -/
def setPowersaveMode (on : Bool) (o : ObjRef) (s : State) : State :=
  s.setObj o { s.objs o with powersaveMode := on }

/-- The powersave decision in the middle of `update_migration_status`. -/
def updatePowersave (info : LoadBalanceInfo) (s : State) : State :=
  match env.powerThresh with
  | none => s
  | some thresh =>
    if s.cycleCount ≤ 5 then s else
    match info.powersave.filter fun _ => decide (info.numOver = 0 ∧ thresh ≤ info.numUnder) with
    | some o =>
      let s := setPowersaveMode true o s
      if (s.objs o).interrupts.length > 0 then forEach (s.objs o).interrupts forceRebalanceIrq s
      else s
    | none =>
      if info.numOver ≠ 0 ∧ info.numPowersave ≠ 0 then forEach s.cpus (setPowersaveMode false) s
      else s

/-- `update_migration_status`. -/
def updateMigrationStatus (s : State) : State :=
  let (info, s) := findOverloadedObjs env s.cpus s
  let s := updatePowersave env info s
  let s := (findOverloadedObjs env s.cacheDomains s).2
  let s := (findOverloadedObjs env s.packages s).2
  (findOverloadedObjs env s.numaNodes s).2

end Irqbalance
