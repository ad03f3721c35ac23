import Irqbalance.Model.IrqList

/-! # Placement of waiting interrupts

`placement.c`: an IRQ first goes to a NUMA node and then descends, one type list at a time, to
the child that `find_best_object` prefers, until its balance level stops it.
-/

namespace Irqbalance

variable (env : Env)

/-- `struct obj_placement`; `none` comes with the sentinel cost `ULLONG_MAX`. -/
structure ObjPlacement where
  best : Option ObjRef := none
  bestCost : ℕ := 2 ^ 64 - 1

/-- `SLOTS_PENALTY_THRESHOLD` and `SLOTS_PENALTY_FACTOR`. -/
def SLOTS_PENALTY_THRESHOLD : ℤ := 10
def SLOTS_PENALTY_FACTOR : ℕ := 1000

/-- The cost added to an object with few slots left. -/
def slotsPenalty (obj : TopoObj) : ℕ :=
  if obj.slotsLeft < SLOTS_PENALTY_THRESHOLD then
    u64 ((SLOTS_PENALTY_THRESHOLD - obj.slotsLeft).toNat * SLOTS_PENALTY_FACTOR)
  else 0

/-- The early returns of `find_best_object`. -/
def eligibleObject (s : State) (d : ObjRef) : Bool :=
  !(env.numaAvail && (s.objs d).objType == .node && (s.objs d).number == NUMA_NO_NODE) &&
  !((s.objs d).objType == .node && !cpusIntersects (s.objs d).mask s.unbannedCpus) &&
  !(s.objs d).powersaveMode &&
  !decide ((s.objs d).slotsLeft ≤ 0)

/-- The tie break on slots and on the number of interrupts. -/
def breaksTie (s : State) (d best : ObjRef) : Bool :=
  decide ((s.objs best).slotsLeft < (s.objs d).slotsLeft) ||
    ((s.objs d).slotsLeft == (s.objs best).slotsLeft &&
      decide ((s.objs d).interrupts.length < (s.objs best).interrupts.length))

/-- `find_best_object`. -/
def findBestObject (s : State) (d : ObjRef) (place : ObjPlacement) : ObjPlacement :=
  if !eligibleObject env s d then place else
  let newload := (s.objs d).load
  let adjustedCost := u64 (newload + slotsPenalty (s.objs d))
  let bestAdjustedCost := match place.best with
    | some best => u64 (place.bestCost + slotsPenalty (s.objs best))
    | none => 2 ^ 64 - 1
  if adjustedCost < bestAdjustedCost then ⟨some d, newload⟩
  else if adjustedCost = bestAdjustedCost ∧ place.best.all (breaksTie s d) then ⟨some d, newload⟩
  else place

/-- The object that the walk over a candidate list ends with. -/
def bestObject (s : State) (candidates : List ObjRef) : Option ObjRef :=
  (forEach candidates (findBestObject env s) {}).best

/-- `find_best_object_for_irq`: the levels that rest on an object of this type. -/
def restsOn : ObjType → Level → Bool
  | .node, .none => true
  | .package, .package => true
  | .cache, .cache => true
  | .cpu, .core => true
  | _, _ => false

/-- `find_best_object_for_irq`. -/
def findBestObjectForIrq (d : ObjRef) (info : IrqRef) (s : State) : State :=
  if !(s.irqs info).moved then s else
  if restsOn (s.objs d).objType (s.irqs info).level then s else
  match bestObject env s (s.objs d).children with
  | none => s
  | some best => migrateIrqObj (some d) (some best) info s

/-- `place_irq_in_object`. -/
def placeIrqInObject (d : ObjRef) (s : State) : State :=
  forEach (s.objs d).interrupts (findBestObjectForIrq env d) s

/-- `place_irq_in_node`. -/
def placeIrqInNode (info : IrqRef) (s : State) : State :=
  if (s.irqs info).level = .none ∧ s.bannedCpus = CPU_MASK_NONE then s else
  -- every entry of the database has a node; the source dereferences it unchecked
  match (s.irqs info).numaNode with
  | none => s
  | some node =>
    if ((s.objs node).number ≠ NUMA_NO_NODE ∨ env.numaAvail = false) ∧
        cpusIntersects (s.objs node).mask s.unbannedCpus = true then
      migrateIrqObj none (some node) info s
    else
      match bestObject env s s.numaNodes with
      | none => s
      | some best => migrateIrqObj none (some best) info s

/-- `calculate_placement`. -/
def calculatePlacement (s : State) : State :=
  let s := sortIrqList env none s
  if s.rebalanceIrqList.length > 0 then
    let s := forEach s.rebalanceIrqList (placeIrqInNode env) s
    let s := forEach s.numaNodes (placeIrqInObject env) s
    let s := forEach s.packages (placeIrqInObject env) s
    forEach s.cacheDomains (placeIrqInObject env) s
  else s

end Irqbalance
