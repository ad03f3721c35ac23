import Irqbalance.Model.IrqList

/-! # Handing the placement to the kernel

`activate.c`. The kernel keeps one affinity mask for each irq number; `Env.write` answers every
attempt to replace one. A path name always fits its buffer.
-/

namespace Irqbalance

variable (env : Env)

/-- `MAX_FALLBACK_ATTEMPTS`. -/
def MAX_FALLBACK_ATTEMPTS : ℕ := 8

/-- `SLOTS_SATURATED`. -/
def SLOTS_SATURATED : ℤ := 0

/-- `is_valid_fallback`. -/
def isValidFallback (s : State) (original : ObjRef) (tried : CpuMask) (cpu : ObjRef) : Bool :=
  !(cpu == original || (s.objs cpu).objType != .cpu) &&
  !decide ((s.objs cpu).slotsLeft ≤ SLOTS_SATURATED) &&
  cpusIntersects (s.objs cpu).mask s.unbannedCpus &&
  !cpusIntersects (s.objs cpu).mask tried

/-- Keep the candidate with more slots left, and the earlier one of two equals. -/
def moreSlots (s : State) (best : Option ObjRef) (candidate : ObjRef) : Option ObjRef :=
  match best with
  | none => some candidate
  | some b => if (s.objs candidate).slotsLeft > (s.objs b).slotsLeft then some candidate else some b

/-- `find_best_cpu_under_obj`, on a tree of at most `fuel` levels. -/
def findBestCpuUnderObj (s : State) (original : ObjRef) (tried : CpuMask) :
    ℕ → ObjRef → Option ObjRef
  | 0, _ => none
  | fuel + 1, obj =>
    if (s.objs obj).objType = .cpu then
      if isValidFallback s original tried obj then some obj else none
    else
      (s.objs obj).children.foldl (fun best child =>
        match findBestCpuUnderObj s original tried fuel child with
        | some candidate => moreSlots s best candidate
        | none => best) none

/-- Nodes, packages, cache domains and CPUs. -/
def TREE_DEPTH : ℕ := 4

/-- The nearest ancestor of the given type. -/
def nearestAncestor (s : State) (type : ObjType) : ℕ → Option ObjRef → Option ObjRef
  | 0, _ => none
  | _, none => none
  | fuel + 1, some o =>
    if (s.objs o).objType = type then some o else nearestAncestor s type fuel (s.objs o).parent

/-- The search scope that `try_fallback_cpu` derives from the balance level. -/
def searchScope (s : State) (original : ObjRef) (level : Level) : Option ObjRef :=
  if (s.objs original).objType = .cpu then
    match level with
    | .cache => nearestAncestor s .cache TREE_DEPTH (s.objs original).parent
    | .package => nearestAncestor s .package TREE_DEPTH (s.objs original).parent
    | _ => none
  else some original

/-- One write of a mask to `/proc/irq/N/smp_affinity`. -/
def writeAffinity (irq : ℤ) (mask : CpuMask) (s : State) : WriteResult × State :=
  let result := env.write s.clock
  (result, { s with
    clock := s.clock + 1
    writes := match result with
      | .openError _ => s.writes
      | _ => s.writes ++ [⟨irq, mask⟩]
    affinity := if result.accepted then Function.update s.affinity irq mask else s.affinity })

/-- Store `assigned_obj`. -/
def setAssigned (info : IrqRef) (o : ObjRef) (s : State) : State :=
  s.setIrq info { s.irqs info with assignedObj := some o }

/-- Store `slots_left`. -/
def setSlots (o : ObjRef) (slots : ℤ) (s : State) : State :=
  s.setObj o { s.objs o with slotsLeft := slots }

/-- Clear `moved`. -/
def clearMoved (info : IrqRef) (s : State) : State :=
  s.setIrq info { s.irqs info with moved := false }

/-- The end of `try_fallback_cpu` after the kernel took the mask. -/
def adoptFallback (info : IrqRef) (original fallback : ObjRef) (s : State) : State :=
  let s := migrateIrqObj (some original) (some fallback) info s
  let s := if (s.objs original).objType = .cpu then setSlots original SLOTS_SATURATED s else s
  clearMoved info s

/-- The retry loop of `try_fallback_cpu`, returning whether a CPU took the IRQ. -/
def fallbackLoop (info : IrqRef) (original scope : ObjRef) :
    ℕ → CpuMask → State → Bool × State
  | 0, _, s => (false, s)
  | attempts + 1, tried, s =>
    match findBestCpuUnderObj s original tried TREE_DEPTH scope with
    | none => (false, s)
    | some fallback =>
      let tried := tried ||| (s.objs fallback).mask
      let s := setAssigned info fallback s
      let appliedMask := s.cpuOnlineMap &&& (s.objs fallback).mask
      let (result, s) := writeAffinity env (s.irqs info).irq appliedMask s
      match result with
      | .openError _ => fallbackLoop info original scope attempts tried (setAssigned info original s)
      | .writeError e =>
        let s := if e = .ENOSPC then setSlots fallback SLOTS_SATURATED s else s
        fallbackLoop info original scope attempts tried (setAssigned info original s)
      -- the result of `fclose` is not looked at here
      | .ok => (true, adoptFallback info original fallback s)
      | .closeError _ => (true, adoptFallback info original fallback s)

/-- `try_fallback_cpu` for an IRQ assigned to `original`. -/
def tryFallbackCpu (info : IrqRef) (original : ObjRef) (s : State) : Bool × State :=
  let level := (s.irqs info).level
  if level = .core ∨ level = .none then (false, s) else
  match searchScope s original level with
  | none => (false, s)
  | some scope =>
    fallbackLoop env info original scope MAX_FALLBACK_ATTEMPTS CPU_MASK_NONE s

/-- `check_affinity`. Reading back the text of a mask yields the mask. -/
def checkAffinity (info : IrqRef) (appliedMask : CpuMask) (s : State) : Bool × State :=
  (!env.readable s.clock || s.affinity (s.irqs info).irq == appliedMask,
    { s with clock := s.clock + 1 })

/-- The error half of `activate_mapping`, for an IRQ assigned to `o`. -/
def activateError (e : Errno) (info : IrqRef) (o : ObjRef) (s : State) : State :=
  match if e = Errno.EIO then .EPERM else e with
  | .EAGAIN | .EBUSY | .EINVAL | .ERANGE | .ENOMEM => s
  | .ENOSPC =>
    let s := if (s.objs o).objType = .cpu then setSlots o SLOTS_SATURATED s else s
    let (placed, s) := tryFallbackCpu env info o s
    if placed then s else clearMoved info (forceRebalanceIrq info s)
  | _ => s.setIrq info { s.irqs info with level := .none, moved := false }

/-- `activate_mapping`. -/
def activateMapping (info : IrqRef) (s : State) : State :=
  if !(s.irqs info).moved then s else
  match (s.irqs info).assignedObj with
  | none => s
  | some o =>
    let appliedMask := s.cpuOnlineMap &&& (s.objs o).mask
    let (same, s) := checkAffinity env info appliedMask s
    if same then clearMoved info s else
    let (result, s) := writeAffinity env (s.irqs info).irq appliedMask s
    match result with
    | .ok => clearMoved info s
    | .openError e => activateError env e info o s
    | .writeError e => activateError env e info o s
    | .closeError e => activateError env e info o s

/-- `activate_mappings`. -/
def activateMappings (s : State) : State := forEach s.interruptsDb (activateMapping env) s

end Irqbalance
