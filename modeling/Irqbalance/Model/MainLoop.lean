import Irqbalance.Model.CommandLine

/-! # Timeouts of the main loop

The end of `main` and the return value of `scan`, which keeps its timeout, replaces it by one with another
interval, or drops it and quits. Sources that were ready when the loop was told to quit may still be
dispatched once. The sockets can be opened.
-/

namespace Irqbalance

variable (env : Env)

/-- The daemon in its main loop. -/
structure MainLoop where
  daemon : Daemon
  lastInterval : ℤ
  /-- The intervals of the timeouts that call `scan`. -/
  timeouts : List ℤ
  quit : Bool := false

/-- A timeout calls `scan`, which returns whether the timeout stays. -/
def fireTimeout (n : ℕ) (r : ScanReading) (l : MainLoop) : MainLoop :=
  if l.timeouts.length ≤ n then l else
  let d := parseProcInterrupts env r.interrupts l.daemon
  if d.keepGoing && d.settings.needRescan then { l with daemon := rescan env r d } else
  let d := balance env r d
  -- sleep_interval may be changed by socket
  if l.lastInterval ≠ d.settings.sleepInterval then
    { l with
      daemon := d
      lastInterval := d.settings.sleepInterval
      timeouts := l.timeouts.eraseIdx n ++ [d.settings.sleepInterval] }
  else if d.keepGoing then { l with daemon := d }
  else { l with daemon := d, timeouts := l.timeouts.eraseIdx n, quit := true }

/-- What a source of the main loop can bring. -/
inductive Source where
  | timeout (n : ℕ) (r : ScanReading)
  | hangup
  | terminate
  | message (buff : List Char)
  | thermal (events : List ThermalEvent)

/-- A source is dispatched. All but the timeouts stay. -/
def dispatchSource (l : MainLoop) : Source → MainLoop
  | .timeout n r => fireTimeout env n r l
  | .hangup => { l with daemon := forceRescan l.daemon }
  | .terminate => { l with daemon := handler l.daemon, quit := true }
  | .message buff => { l with daemon := handleMessage buff l.daemon }
  | .thermal events => { l with daemon := handleThermal events l.daemon }

/-- `g_main_loop_run`. -/
def runMainLoop (l : MainLoop) (sources : List Source) : MainLoop := sources.foldl (dispatchSource env) l

/-- `num_online_cpus`. -/
def numOnlineCpus (s : State) : ℕ := cpusWeight s.cpuOnlineMap

/-- `main` behind its command line, up to the main loop, which a machine with a single CPU does not enter. -/
def enterMainLoop (c : CommandLine) (affinity : ℤ → CpuMask) (r : ScanReading) : Option MainLoop :=
  let d := startup env c.settings c.oneShotMode c.clBannedModules affinity r
  if numOnlineCpus d.state ≤ 1 then none
  else some { daemon := d, lastInterval := c.sleepInterval, timeouts := [c.sleepInterval] }

end Irqbalance
