import Irqbalance.Model.Scan

/-! # The command line

`parse_command_line` as compiled with `getopt_long`, which hands it one option after the other, and what
`main` takes from the environment. `exit` is an error with the status.
-/

namespace Irqbalance

open CText

/-- `ULONG_MAX`. -/
def ULONG_MAX : ℕ := 2 ^ 64 - 1

/-- `SLEEP_INTERVAL`. -/
def SLEEP_INTERVAL : ℤ := 10

/-- An option as `getopt_long` returns it, with `'?'` for one that it does not know. -/
structure CmdOption where
  opt : Char
  optarg : List Char := []
deriving DecidableEq, Repr

/-- The globals that the options set. -/
structure CommandLine where
  deepestCache : ℕ := 2
  powerThresh : ℕ := ULONG_MAX
  migrateRatio : ℕ := 0
  sleepInterval : ℤ := SLEEP_INTERVAL
  clBannedIrqs : List ℤ := []
  clBannedModules : List (List Char) := []
  polscript : Option (List Char) := none
  pidfile : Option (List Char) := none
  oneShotMode : Bool := false
  debugMode : Bool := false
  foregroundMode : Bool := false
  journalLogging : Bool := false
deriving DecidableEq, Repr

/-- `optarg == endptr`. -/
def CmdOption.noNumber (o : CmdOption) : Bool := (scanNumber o.optarg).isNone

/-- One round of the loop of `parse_command_line`. -/
def parseOption (c : CommandLine) (o : CmdOption) : Except ℤ CommandLine :=
  match o.opt with
  | '?' => .error 1
  | 'V' => .error 0
  | 'c' =>
    let deepestCache := (strtoul o.optarg).1
    if o.noNumber ∨ deepestCache = ULONG_MAX ∨ deepestCache < 1 then .error 1
    else .ok { c with deepestCache := deepestCache }
  | 'd' => .ok { c with debugMode := true, foregroundMode := true }
  | 'f' => .ok { c with foregroundMode := true }
  | 'i' =>
    let val := (strtoul o.optarg).1
    if o.noNumber ∨ val = ULONG_MAX then .error 1
    else .ok { c with clBannedIrqs := addClBannedIrq (toInt val) c.clBannedIrqs }
  | 'l' => .ok { c with polscript := some o.optarg }
  | 'm' => .ok { c with clBannedModules := addBannedModule o.optarg c.clBannedModules }
  | 'p' =>
    if hasPrefix o.optarg "off".toList then .ok { c with powerThresh := ULONG_MAX }
    else
      let powerThresh := (strtoul o.optarg).1
      if o.noNumber ∨ powerThresh = ULONG_MAX then .error 1 else .ok { c with powerThresh := powerThresh }
  | 'o' => .ok { c with oneShotMode := true }
  | 's' => .ok { c with pidfile := some o.optarg }
  | 'j' => .ok { c with journalLogging := true, foregroundMode := true }
  | 't' =>
    let sleepInterval := toInt (strtol o.optarg)
    if o.noNumber ∨ sleepInterval < 1 then .error 1 else .ok { c with sleepInterval := sleepInterval }
  | 'e' =>
    if o.noNumber then .error 1 else .ok { c with migrateRatio := (strtoul o.optarg).1 }
  | _ => .ok c

/-- `parse_command_line`. -/
def parseCommandLine (options : List CmdOption) : Except ℤ CommandLine := options.foldlM parseOption {}

/-- The variables that `main` looks for. -/
structure Environment where
  invocationId : Bool := false
  irqbalanceOneshot : Bool := false
  irqbalanceDebug : Bool := false

/-- The beginning of `main`, behind the command line. -/
def CommandLine.environment (v : Environment) (c : CommandLine) : CommandLine :=
  let c := if v.invocationId then { c with journalLogging := true, foregroundMode := true } else c
  let c := if v.irqbalanceOneshot then { c with oneShotMode := true } else c
  if v.irqbalanceDebug then { c with debugMode := true, foregroundMode := true } else c

/-- The options that the daemon reads as it runs. -/
def CommandLine.env (c : CommandLine) (K : Env) : Env :=
  { K with
    powerThresh := if c.powerThresh = ULONG_MAX then none else some c.powerThresh
    migrateRatio := c.migrateRatio
    deepestCache := c.deepestCache }

/-- The options that a message can change later. -/
def CommandLine.settings (c : CommandLine) : Settings :=
  { sleepInterval := c.sleepInterval, clBannedIrqs := c.clBannedIrqs }

end Irqbalance
