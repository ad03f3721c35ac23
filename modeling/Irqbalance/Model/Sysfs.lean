import Irqbalance.Lib.CText
import Irqbalance.Model.Bans
import Irqbalance.Model.CpuTree
import Mathlib.Data.List.DropRight

/-! # The topology, from the files of sysfs

`build_numa_node_list` and `parse_cpu_tree` over the directories and the texts that they read. A number of a CPU
that is outside of the masks would be looked up behind them, which is `none` here. Path names fit their buffers, and
`deepest_cache` is at least 1.
-/

namespace Irqbalance

open CText

variable (env : Env)

/-- An entry of a directory; `isDir` tells `d_type == DT_DIR`. -/
structure Dirent where
  name : List Char
  isDir : Bool := false
deriving DecidableEq, Repr

/-- The files under /sys by their paths: the text of a file and the entries of a directory, unless they cannot be
opened, and what `stat` finds. -/
structure Sysfs where
  text : List Char → Option (List Char) := fun _ => none
  dir : List Char → Option (List Dirent) := fun _ => none
  stat : List Char → Bool := fun _ => false

/-- `SYSFS_NODE_PATH`, and the directory that `parse_cpu_tree` opens. -/
def SYSFS_NODE_PATH : List Char := "/sys/devices/system/node".toList
def SYSFS_CPU_PATH : List Char := "/sys/devices/system/cpu".toList

section Lines

variable (fs : Sysfs)

/-- `process_one_line`: the line that the callback gets. -/
def processOneLine (path : List Char) : Option (List Char) := (fs.text path).bind fun text => (getLines text).head?

/-- `get_int`. -/
def getInt (line : List Char) : ℤ := toInt (strtoul line).1

/-- `process_one_line` with `get_mask_from_bitmap` and a default. -/
def readMask (path : List Char) (mask : CpuMask) : CpuMask :=
  match processOneLine fs path with
  | none => mask
  | some line => (cpumaskParseUser line).1

end Lines

section Numa

variable (fs : Sysfs)

/-- `add_one_node`, which reads the mask of the node. -/
def addOneNodeFrom (nodeid : ℤ) (s : State) : State :=
  let mask := if nodeid = NUMA_NO_NODE then BitVec.allOnes NR_CPUS
    else readMask fs (SYSFS_NODE_PATH ++ "/node".toList ++ showInt nodeid ++ "/cpumap".toList) CPU_MASK_NONE
  addOneNode nodeid mask s

/-- The test of `build_numa_node_list`. -/
def isNodeDir (entry : Dirent) : Bool :=
  entry.isDir && "node".toList.isPrefixOf entry.name && (entry.name.drop 4).head?.any Char.isDigit

/-- `build_numa_node_list`, from the directory. -/
def buildNumaNodeListFrom (s : State) : State :=
  let s := addOneNodeFrom fs NUMA_NO_NODE s
  if !env.numaAvail then s else
  match fs.dir SYSFS_NODE_PATH with
  | none => s
  | some entries => forEach entries (fun entry s =>
      if isNodeDir entry then addOneNodeFrom fs (getInt (entry.name.drop 4)) s else s) s

end Numa

section Cpus

variable (fs : Sysfs)

/-- `sscanf(d_name, "cpu%d%c", &num, &pad) == 1 && !strchr(d_name, ' ')`. -/
def isCpuDir (name : List Char) : Bool :=
  "cpu".toList.isPrefixOf name && (scanNumber (name.drop 3)).any (fun (_, _, pad) => pad.isEmpty) && ' ' ∉ name

/-- `shared_cpu_map` of a cache. -/
def sharedCpuMap (path : List Char) (cacheIndex : ℕ) : List Char :=
  path ++ "/cache/index".toList ++ showNat cacheIndex ++ "/shared_cpu_map".toList

/-- The loop that looks for the deepest cache, from an index on: the last one that is there. -/
def maxCacheIndex (path : List Char) : ℕ → ℕ → ℕ
  | 0, cacheIndex => cacheIndex - 1
  | left + 1, cacheIndex =>
    if fs.stat (sharedCpuMap path cacheIndex) then maxCacheIndex path left (cacheIndex + 1) else cacheIndex - 1

/-- The number behind `node`, where the name has nothing else. -/
def nodeNumber (name : List Char) : Option ℤ :=
  if !"node".toList.isPrefixOf name then none else
  let text := name.drop 4
  let num := toInt (strtol text)
  let rest := ((scanNumber text).map fun (_, _, rest) => rest).getD text
  if rest = [] ∧ 0 ≤ num then some num else none

/-- The node that the directory of the CPU names. -/
def readNodeid (path : List Char) : ℤ :=
  if env.numaAvail then (((fs.dir path).getD []).findSome? fun entry => nodeNumber entry.name).getD NUMA_NO_NODE
  else NUMA_NO_NODE

/-- The package mask, overridden by the node. -/
def readPackageMask (path : List Char) (cpunr : ℕ) (nodeid : ℤ) (s : State) : CpuMask :=
  let packageMask := readMask fs (path ++ "/topology/core_siblings".toList) (cpumaskOfCpu cpunr)
  match if env.numaAvail then getNumaNode env nodeid s else none with
  | none => packageMask
  | some node =>
    if cpusWeight packageMask > cpusWeight (s.objs node).mask then packageMask &&& (s.objs node).mask else packageMask

/-- `do_one_cpu`, from the files. -/
def doOneCpuFrom (path : List Char) (s : State) : Option State := do
  let onlineCpus ← getMaskFromCpulist (processOneLine fs (SYSFS_CPU_PATH ++ "/online".toList))
  let number := toInt (strtol ((path.rtakeWhile (· != '/')).drop 3))
  if ¬ (0 ≤ number ∧ number < NR_CPUS) then none else
  let cpunr := number.toNat
  if !cpuIsset cpunr onlineCpus then some s else
  let s := { s with cpuOnlineMap := s.cpuOnlineMap ||| cpumaskOfCpu cpunr }
  if cpusIntersects (cpumaskOfCpu cpunr) s.bannedCpus then some s else
  let packageid := ((processOneLine fs (path ++ "/topology/physical_package_id".toList)).map getInt).getD 0
  let index := maxCacheIndex fs path env.deepestCache 1
  let cacheMask := if index > 0 then readMask fs (sharedCpuMap path index) (cpumaskOfCpu cpunr) else cpumaskOfCpu cpunr
  let nodeid := readNodeid env fs path
  let packageMask := readPackageMask env fs path cpunr nodeid s &&& s.unbannedCpus
  let cacheMask := cacheMask &&& s.unbannedCpus
  let (cpu, s) := s.allocObj { objType := .cpu, number := cpunr, mask := cpumaskOfCpu cpunr }
  let (cache, s) := addCpuToCacheDomain env cpu cacheMask nodeid s
  let s := addCacheDomainToPackage env cache packageid packageMask nodeid s
  some { s with cpus := s.cpus ++ [cpu] }

/-- `setup_banned_cpus`, with the two files of sysfs. -/
def setupBannedCpusFrom (src : BanSources) : Option CpuMask :=
  setupBannedCpus { src with
    isolated := processOneLine fs (SYSFS_CPU_PATH ++ "/isolated".toList)
    nohzFull := processOneLine fs (SYSFS_CPU_PATH ++ "/nohz_full".toList) }

/-- `parse_cpu_tree`, from the directory. -/
def parseCpuTreeFrom (src : BanSources) (s : State) : Option State := do
  let banned ← setupBannedCpusFrom fs src
  let s := { s with bannedCpus := banned, unbannedCpus := ~~~banned }
  match fs.dir SYSFS_CPU_PATH with
  | none => some s
  | some entries =>
    let s ← tryForEach entries (fun entry s =>
      if isCpuDir entry.name then doOneCpuFrom env fs (SYSFS_CPU_PATH ++ '/' :: entry.name) s else some s) s
    some (forEach s.packages (connectCpuMemTopo 3) s)

end Cpus

end Irqbalance
