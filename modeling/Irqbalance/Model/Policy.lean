import Irqbalance.Lib.CText
import Irqbalance.Model.Classify

/-! # The user's policy for an interrupt

`get_irq_user_policy` of classify.c. A policy script is what its output and its exit status make of
it; `none` stands for a script that `popen` cannot start. The output is read line by line into a
buffer of 128 bytes, and each piece is a C string.
-/

namespace Irqbalance

open CText (cString strtoul toInt)

variable (env : Env)

/-- `strcasecmp` finds no difference. -/
def sameText (a b : List Char) : Bool := a.map Char.toLower == b.map Char.toLower

/-- `levelvals`. -/
def levelvals : List (List Char) := ["none", "package", "cache", "core"].map String.toList

/-- `parse_user_policy_key`. -/
def parseUserPolicyKey (s : State) (buf : List Char) (pol : UserIrqPolicy) : UserIrqPolicy :=
  match buf.dropWhile (· != '=') with
  | [] => pol
  | _ :: rest =>
    let key := buf.takeWhile (· != '=')
    let value := rest.takeWhile (· != '\n')
    if sameText "ban".toList key then
      if sameText "false".toList value then { pol with ban := 0 }
      else if sameText "true".toList value then { pol with ban := 1 }
      else pol
    else if sameText "balance_level".toList key then
      match levelvals.findIdx? (sameText · value) with
      | some idx => { pol with level := idx }
      | none => pol
    else if sameText "numa_node".toList key then
      let idx := toInt (strtoul value).1
      if (getNumaNode env idx s).isNone then pol
      else { pol with numaNode := idx, numaNodeSet := 1 }
    else pol

/-- `fgets` with room for `n` characters: what it reads and what it leaves. -/
def fgets : ℕ → List Char → List Char × List Char
  | 0, text => ([], text)
  | _, [] => ([], [])
  | n + 1, c :: text =>
    if c = '\n' then ([c], text) else (c :: (fgets n text).1, (fgets n text).2)

/-- The loop of `run_script_for_policy` over the output. Each round reads a character at least, so
that the output's length bounds the rounds. -/
def readPolicy (s : State) : ℕ → List Char → UserIrqPolicy → UserIrqPolicy
  | 0, _, pol => pol
  | _, [], pol => pol
  | fuel + 1, c :: text, pol =>
    let (buffer, rest) := fgets 127 (c :: text)
    readPolicy s fuel rest (parseUserPolicyKey env s (cString buffer) pol)

/-- The output and the exit status of a script. -/
structure ScriptRun where
  output : List Char
  status : ℕ
deriving DecidableEq, Repr

/-- `run_script_for_policy`: the value it returns and the policy it leaves. -/
def runScriptForPolicy (s : State) (run : Option ScriptRun) (pol : UserIrqPolicy) : ℤ × UserIrqPolicy :=
  match run with
  | none => (1, pol)
  | some run => (run.status, readPolicy env s run.output.length run.output pol)

/-- A directory entry that `stat` finds. -/
structure PolicyFile where
  isReg : Bool := true
  isExecutable : Bool := true
  run : Option ScriptRun
deriving DecidableEq, Repr

/-- `polscript`: not given or not found, a file, or a directory with its entries in `readdir` order. -/
inductive PolScript where
  | absent
  | file (run : Option ScriptRun)
  | directory (entries : List PolicyFile)

/-- The loop of `get_irq_user_policy` over a directory. -/
def tryScripts (s : State) : List PolicyFile → UserIrqPolicy → UserIrqPolicy
  | [], pol => pol
  | entry :: entries, pol =>
    if !entry.isReg then tryScripts s entries pol
    else if !entry.isExecutable then tryScripts s entries pol
    else
      let (ret, pol) := runScriptForPolicy env s entry.run {}
      if ret < 0 ∨ ret ≥ 2 then tryScripts s entries pol
      else if ret = 1 then tryScripts s entries pol
      else pol

/-- `get_irq_user_policy`; `memset(pol, -1, ..)` is the default policy. -/
def getIrqUserPolicy (s : State) : PolScript → UserIrqPolicy
  | .absent => {}
  | .file run =>
    let (ret, pol) := runScriptForPolicy env s run {}
    if ret ≠ 0 then {} else pol
  | .directory entries => tryScripts env s entries {}

end Irqbalance
