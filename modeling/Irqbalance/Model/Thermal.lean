import Irqbalance.Model.Bitmap

/-! # Thermal events

`update_banned_cpus` and `handle_thermal_event` of thermal.c. The two static masks of the former and
the globals it changes are one record. An event carries the number of online CPUs that `sysconf`
reports when it is handled.
-/

namespace Irqbalance

open CText (toInt)

/-- One triple of a notification. -/
structure ThermalEvent where
  cpu : Fin NR_CPUS
  perf : ℤ
  efficiency : ℤ
  online : ℤ
deriving DecidableEq, Repr

/-- `banmask`, `itrmask`, `thermal_banned_cpus` and `need_rescan`. -/
structure Thermal where
  banmask : CpuMask := CPU_MASK_NONE
  itrmask : CpuMask := CPU_MASK_NONE
  thermalBannedCpus : CpuMask := CPU_MASK_NONE
  needRescan : Bool := false
deriving DecidableEq, Repr

/-- `need_to_ban`: no performance and no efficiency. -/
def ThermalEvent.needToBan (e : ThermalEvent) : Bool := e.perf == 0 && e.efficiency == 0

/-- `update_banned_cpus`. -/
def updateBannedCpus (t : Thermal) (e : ThermalEvent) : Thermal :=
  let t := if e.needToBan then { t with banmask := setBit e.cpu t.banmask } else t
  let t := { t with itrmask := setBit e.cpu t.itrmask }
  if (cpusWeight t.itrmask : ℤ) < e.online then t else
  let t := if t.thermalBannedCpus = t.banmask then t
    else { t with thermalBannedCpus := t.banmask, needRescan := true }
  { t with banmask := CPU_MASK_NONE, itrmask := CPU_MASK_NONE }

/-- The events in the attributes of a notification. A number above `NR_CPUS` is skipped; `none` when
one that is not skipped lies outside of the masks. -/
def thermalEvents (online : ℤ) : List ℕ → Option (List ThermalEvent)
  | cpu :: perf :: efficiency :: rest =>
    if toInt cpu > NR_CPUS then thermalEvents online rest
    else if inside : 0 ≤ toInt cpu ∧ toInt cpu < NR_CPUS then
      (thermalEvents online rest).map fun events =>
        ⟨⟨(toInt cpu).toNat, by omega⟩, toInt perf, toInt efficiency, online⟩ :: events
    else none
  | _ => some []

/-- `INDEX_CPUNUM`, `INDEX_PERF`, `INDEX_EFFI` and `INDEX_MAX`. -/
def INDEX_CPUNUM : ℕ := 0
def INDEX_PERF : ℕ := 1
def INDEX_EFFI : ℕ := 2
def INDEX_MAX : ℕ := 3

/-- The arguments of a call of `update_banned_cpus`. -/
structure UpdateCall where
  curCpuidx : ℤ
  needToBan : Bool
deriving DecidableEq, Repr

/-- The calls of `update_banned_cpus` that the loop of `handle_thermal_event` makes from the `i`-th
attribute on, when the values before it have left `eventData`. -/
def updateCallsFrom (i : ℕ) (eventData : ℕ → ℤ) : List (BitVec 32) → List UpdateCall
  | [] => []
  | value :: rest =>
    let idx := i % INDEX_MAX
    let eventData := Function.update eventData idx value.toInt
    if idx ≠ INDEX_EFFI then updateCallsFrom (i + 1) eventData rest else
    let curCpuidx := eventData INDEX_CPUNUM
    let validEvent := decide (curCpuidx ≤ NR_CPUS)
    if !validEvent then updateCallsFrom (i + 1) eventData rest else
    let needToBan := eventData INDEX_PERF == 0 && eventData INDEX_EFFI == 0
    ⟨curCpuidx, needToBan⟩ :: updateCallsFrom (i + 1) eventData rest

/-- The calls for the attributes of a notification; `event_data` starts as `{ INVALID_EVENT_VALUE }`. -/
def updateCalls (values : List (BitVec 32)) : List UpdateCall :=
  updateCallsFrom 0 (fun idx => if idx = 0 then -1 else 0) values

/-- The loop of `handle_thermal_event`. -/
def handleThermalEvent (online : ℤ) (values : List ℕ) (t : Thermal) : Option Thermal :=
  (thermalEvents online values).map fun events => events.foldl updateBannedCpus t

end Irqbalance
