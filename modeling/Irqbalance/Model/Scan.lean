import Irqbalance.Model.Bans
import Irqbalance.Model.Daemon
import Irqbalance.Model.Socket
import Irqbalance.Model.Thermal

/-! # The main loop

`scan` with `parse_proc_interrupts`, and the callbacks for signals, messages and thermal events. They
share `need_rescan`, `keep_going` and `cycle_count`, and the main loop calls them in any order.
Allocation succeeds, so that `need_rebuild` is never set and one build is enough.
-/

namespace Irqbalance

variable (env : Env)

/-- A line of /proc/interrupts that starts with a number: that number, what
`init_irq_class_and_type` makes of the rest, and the counts of the CPUs. -/
structure ProcLine where
  irq : ℕ
  hint : IrqHint
  counts : List ℕ := []

/-- What `parse_proc_interrupts` reads: the lines, unless the file has not even a header, and the
sysfs files of devices that are new. -/
structure InterruptsReading where
  lines : Option (List ProcLine)
  src : IrqSources := {}

/-- The loads that `parse_proc_stat` attributes. -/
structure StatReading where
  objs : ObjRef → ObjStats := fun _ => ⟨0, 0, 0⟩
  loads : IrqRef → ℕ := fun _ => 1

/-- What `build_object_tree` reads; the masks of the UI and of thermal events come from the daemon. -/
structure TreeReading where
  machine : Machine
  bans : BanSources := {}
  src : IrqSources := {}

/-- What one call of `scan` reads. The second half is only read by a rescan. -/
structure ScanReading where
  interrupts : InterruptsReading
  stat : StatReading := {}
  tree : TreeReading
  interruptsAfter : InterruptsReading

/-- The globals of the daemon; `need_rescan` is the one of the settings. -/
structure Daemon where
  state : State
  settings : Settings
  thermal : Thermal := {}
  keepGoing : Bool := true
  oneShotMode : Bool := false

/-- The globals as the database functions find them: `cl_banned_irqs` is the one of the settings. -/
def Daemon.globals (d : Daemon) : State := { d.state with clBannedIrqs := d.settings.clBannedIrqs }

/-- The loop of `parse_proc_interrupts`: the state, and whether it raises `need_rescan`. -/
def parseProcLines (src : IrqSources) : List ProcLine → State → State × Bool
  | [], s => (s, false)
  | line :: rest, s =>
    let s := if (getIrqInfo line.irq s).isSome then s
      else procIrqHotplug env src { line.hint with irq := line.irq } s
    match getIrqInfo line.irq s with
    | none => (s, true)
    | some info =>
      let s := s.setIrq info { s.irqs info with existing := true }
      if line.counts.length ≠ cpusWeight s.cpuOnlineMap then (s, true) else
      let count := u64 line.counts.sum
      -- removed and inserted again
      if count < (s.irqs info).irqCount then (s, true) else
      let entry := s.irqs info
      parseProcLines src rest (s.setIrq info { entry with lastIrqCount := entry.irqCount, irqCount := count })

/-- `parse_proc_interrupts`. -/
def parseProcInterrupts (r : InterruptsReading) (d : Daemon) : Daemon :=
  match r.lines with
  | none => d
  | some lines =>
    let (s, raised) := parseProcLines env r.src lines d.globals
    let needRescan := d.settings.needRescan || raised
    { d with
      state := if needRescan then s else clearNoExistingIrqs s
      settings := { d.settings with needRescan := needRescan } }

/-- `clear_work_stats` and `parse_proc_stat`. -/
def parseProcStat (r : StatReading) (s : State) : State :=
  account r.objs (fun i => ⟨(s.irqs i).irqCount, (s.irqs i).lastIrqCount, r.loads i, (s.irqs i).existing⟩)
    s.cycleCount s.clBannedIrqs s

/-- The mask that `setup_banned_cpus` sets; a parser that writes out of bounds may leave any. -/
def Daemon.bannedCpus (r : TreeReading) (d : Daemon) : CpuMask :=
  (setupBannedCpus { r.bans with
    bannedCpumaskFromUi := d.settings.bannedCpumaskFromUi
    thermalBannedCpus := d.thermal.thermalBannedCpus }).getD CPU_MASK_NONE

/-- `build_object_tree`. -/
def buildObjectTree (r : TreeReading) (banned : CpuMask) (s : State) : State :=
  rebuildIrqDb env r.src (parseCpuTree env r.machine banned (buildNumaNodeList env r.machine s))

/-- The rescan branch of `scan`, after `need_rescan` has been seen. -/
def rescan (r : ScanReading) (d : Daemon) : Daemon :=
  let banned := d.bannedCpus r.tree
  let d := { d with
    settings := { d.settings with needRescan := false }
    state := rebuild env r.tree.machine banned r.tree.src { d.globals with cycleCount := 0 } }
  let d := parseProcInterrupts env r.interruptsAfter d
  { d with state := parseProcStat r.stat d.state }

/-- The other branch of `scan`. -/
def balance (r : ScanReading) (d : Daemon) : Daemon :=
  let s := parseProcStat r.stat d.state
  let s := if s.cycleCount ≠ 0 then updateMigrationStatus env s else s
  let s := activateMappings env (calculatePlacement env s)
  { d with
    state := { s with cycleCount := u64 (s.cycleCount + 1) }
    keepGoing := d.keepGoing && !d.oneShotMode }

/-- `scan`. -/
def scan (r : ScanReading) (d : Daemon) : Daemon :=
  let d := parseProcInterrupts env r.interrupts d
  if d.keepGoing && d.settings.needRescan then rescan env r d else balance env r d

/-- `force_rescan`. -/
def forceRescan (d : Daemon) : Daemon :=
  if d.state.cycleCount ≠ 0 then { d with settings := { d.settings with needRescan := true } } else d

/-- `handler`. -/
def handler (d : Daemon) : Daemon := { d with keepGoing := false }

/-- `sock_handle`. -/
def handleMessage (buff : List Char) (d : Daemon) : Daemon :=
  { d with settings := (sockHandle d.state buff d.settings).1 }

/-- The triples of a thermal notification. -/
def handleThermal (events : List ThermalEvent) (d : Daemon) : Daemon :=
  let t := events.foldl updateBannedCpus { d.thermal with needRescan := d.settings.needRescan }
  { d with thermal := t, settings := { d.settings with needRescan := t.needRescan } }

/-- What the main loop can dispatch next. -/
inductive Event where
  | scan (r : ScanReading)
  | hangup
  | terminate
  | message (buff : List Char)
  | thermal (events : List ThermalEvent)

/-- One callback of the main loop. -/
def dispatch (d : Daemon) : Event → Daemon
  | .scan r => scan env r d
  | .hangup => forceRescan d
  | .terminate => handler d
  | .message buff => handleMessage buff d
  | .thermal events => handleThermal events d

/-- The main loop. -/
def mainLoop (d : Daemon) (events : List Event) : Daemon := events.foldl (dispatch env) d

/-- `main` up to the main loop: what it builds from the command line and the system. -/
def startup (c : Settings) (oneShotMode : Bool) (modules : List (List Char)) (affinity : ℤ → CpuMask)
    (r : ScanReading) : Daemon :=
  let d : Daemon := {
    state := { affinity := affinity, clBannedModules := modules }
    settings := c, oneShotMode := oneShotMode }
  let s := buildObjectTree env r.tree (d.bannedCpus r.tree) d.globals
  let d := { d with state := forEach s.interruptsDb forceRebalanceIrq s }
  let d := parseProcInterrupts env r.interrupts d
  { d with state := clearSlots (parseProcStat r.stat d.state) }

end Irqbalance
