import Irqbalance.Model.Types

/-! # Building the topology

`numa.c` and the tree-building half of `cputree.c`. A `Machine` is what sysfs shows at one
moment: the online map, the cpuN and nodeN directories in `readdir` order and the masks they
offer. `parseCpuTree` takes the result of `setup_banned_cpus` as an argument, so that it can be
any mask. Allocation succeeds.
-/

namespace Irqbalance

variable (env : Env)

/-- One `cpuN` directory. `none` stands for a file that cannot be read. -/
structure CpuDir where
  number : ℕ
  coreSiblings : Option CpuMask := none
  physicalPackageId : Option ℤ := none
  /-- `shared_cpu_map` of `cache/index1`, `cache/index2` and so on, up to the first missing one. -/
  sharedCpuMaps : List (Option CpuMask) := []
  /-- The first entry named `node` and a number. -/
  node : Option ℕ := none
deriving DecidableEq, Repr

/-- One `nodeN` directory. -/
structure NodeDir where
  id : ℕ
  cpumap : Option CpuMask := none
deriving DecidableEq, Repr

/-- The topology files of one machine. -/
structure Machine where
  online : CpuMask
  cpuDirs : List CpuDir
  nodeDirs : List NodeDir := []
deriving DecidableEq, Repr

/-- `calloc` and initialise a `topo_obj`. -/
def State.allocObj (s : State) (obj : TopoObj) : ObjRef × State :=
  (s.nextObj, { s.setObj s.nextObj obj with nextObj := s.nextObj + 1 })

/-- Append to an object's `children`. -/
def State.addChild (s : State) (o child : ObjRef) : State :=
  s.setObj o { s.objs o with children := (s.objs o).children ++ [child] }

/-- `add_one_node`. -/
def addOneNode (nodeid : ℤ) (mask : CpuMask) (s : State) : State :=
  let (o, s) := s.allocObj { objType := .node, number := nodeid, mask := mask }
  { s with numaNodes := s.numaNodes ++ [o] }

/-- `build_numa_node_list`. -/
def buildNumaNodeList (m : Machine) (s : State) : State :=
  let s := addOneNode NUMA_NO_NODE (BitVec.allOnes NR_CPUS) s
  if env.numaAvail then
    forEach m.nodeDirs (fun d => addOneNode d.id (d.cpumap.getD CPU_MASK_NONE)) s
  else s

/-- `get_numa_node`. -/
def getNumaNode (nodeid : ℤ) (s : State) : Option ObjRef :=
  s.numaNodes.find? fun o => (s.objs o).number == if env.numaAvail then nodeid else NUMA_NO_NODE

/-- `add_numa_node_to_topo_obj`. -/
def addNumaNodeToTopoObj (obj : ObjRef) (nodeid : ℤ) (s : State) : State :=
  match getNumaNode env nodeid s with
  | none => s
  | some node =>
    if env.numaAvail && (s.objs node).number == NUMA_NO_NODE then s else
    let s := if node ∈ (s.objs obj).numaNodes then s
      else s.setObj obj { s.objs obj with numaNodes := (s.objs obj).numaNodes ++ [node] }
    if !env.numaAvail && (s.objs obj).objType == .package then
      if obj ∈ (s.objs node).children then s
      else
        let s := s.addChild node obj
        s.setObj obj { s.objs obj with parent := some node }
    else s

/-- Append `child` to the children of `o` and make `o` its parent, unless it is listed already. -/
def adoptChild (o child : ObjRef) (s : State) : State :=
  if child ∈ (s.objs o).children then s
  else
    let s := s.addChild o child
    s.setObj child { s.objs child with parent := some o }

/-- The node is recorded when the machine has no NUMA or the CPU names a node. -/
def recordNode (obj : ObjRef) (nodeid : ℤ) (s : State) : State :=
  if !env.numaAvail || decide (nodeid > NUMA_NO_NODE) then addNumaNodeToTopoObj env obj nodeid s
  else s

/-- The package whose mask equals `packageMask`, created when there is none. -/
def findPackage (packageid : ℤ) (packageMask : CpuMask) (s : State) : ObjRef × State :=
  match s.packages.find? fun o => (s.objs o).mask == packageMask with
  | some o => (o, s)
  | none =>
    let (o, s) := s.allocObj { objType := .package, number := packageid, mask := packageMask }
    (o, { s with packages := s.packages ++ [o] })

/-- `add_cache_domain_to_package`. -/
def addCacheDomainToPackage (cache : ObjRef) (packageid : ℤ) (packageMask : CpuMask) (nodeid : ℤ)
    (s : State) : State :=
  let (package, s) := findPackage packageid packageMask s
  recordNode env package nodeid (adoptChild package cache s)

/-- The cache domain whose mask equals `cacheMask`, created when there is none. -/
def findCacheDomain (cacheMask : CpuMask) (s : State) : ObjRef × State :=
  match s.cacheDomains.find? fun o => (s.objs o).mask == cacheMask with
  | some o => (o, s)
  | none =>
    let (o, s) := s.allocObj
      { objType := .cache, number := s.cacheDomainCount, mask := cacheMask }
    (o, { s with
      cacheDomains := s.cacheDomains ++ [o], cacheDomainCount := s.cacheDomainCount + 1 })

/-- `add_cpu_to_cache_domain`, returning the cache domain. -/
def addCpuToCacheDomain (cpu : ObjRef) (cacheMask : CpuMask) (nodeid : ℤ) (s : State) :
    ObjRef × State :=
  let (cache, s) := findCacheDomain cacheMask s
  (cache, recordNode env cache nodeid (adoptChild cache cpu s))

/-- The mask of the deepest cache index not above `deepest_cache`, else the CPU alone. -/
def CpuDir.cacheMask (deepestCache : ℕ) (d : CpuDir) : CpuMask :=
  match (d.sharedCpuMaps.take deepestCache).getLast? with
  | some (some mask) => mask
  | _ => cpumaskOfCpu d.number

/-- `NUMA_NO_NODE` unless the directory of the CPU names a node. -/
def CpuDir.nodeid (d : CpuDir) : ℤ :=
  if env.numaAvail then
    match d.node with
    | some id => id
    | none => NUMA_NO_NODE
  else NUMA_NO_NODE

/-- The package mask, overridden by the node where the package is larger than the node. -/
def CpuDir.packageMask (d : CpuDir) (s : State) : CpuMask :=
  let mask := d.coreSiblings.getD (cpumaskOfCpu d.number)
  if env.numaAvail then
    match getNumaNode env (d.nodeid env) s with
    | some node =>
      if cpusWeight mask > cpusWeight (s.objs node).mask then mask &&& (s.objs node).mask else mask
    | none => mask
  else mask

/-- `do_one_cpu`. -/
def doOneCpu (m : Machine) (d : CpuDir) (s : State) : State :=
  if !cpuIsset d.number m.online then s else
  let s := { s with cpuOnlineMap := s.cpuOnlineMap ||| cpumaskOfCpu d.number }
  if cpusIntersects (cpumaskOfCpu d.number) s.bannedCpus then s else
  -- blank out the banned cpus from the various masks
  let cacheMask := d.cacheMask env.deepestCache &&& s.unbannedCpus
  let packageMask := d.packageMask env s &&& s.unbannedCpus
  let (cpu, s) := s.allocObj
    { objType := .cpu, number := d.number, mask := cpumaskOfCpu d.number }
  let (cache, s) := addCpuToCacheDomain env cpu cacheMask (d.nodeid env) s
  let s := addCacheDomainToPackage env cache (d.physicalPackageId.getD 0) packageMask
    (d.nodeid env) s
  { s with cpus := s.cpus ++ [cpu] }

/-- `connect_cpu_mem_topo`; the recursion ends at the CPUs, which have no `numa_nodes`. -/
def connectCpuMemTopo : ℕ → ObjRef → State → State
  | 0, _, s => s
  | fuel + 1, p, s =>
    match (s.objs p).numaNodes with
    | [] => s
    | [node] =>
      let s := if (s.objs p).objType == .package && (s.objs p).parent.isNone
        then s.setObj p { s.objs p with parent := some node } else s
      if p ∈ (s.objs node).children then s else s.addChild node p
    | _ => forEach (s.objs p).children (connectCpuMemTopo fuel) s

/-- `parse_cpu_tree`, with the mask that `setup_banned_cpus` has left in `banned_cpus`. -/
def parseCpuTree (m : Machine) (banned : CpuMask) (s : State) : State :=
  let s := { s with bannedCpus := banned, unbannedCpus := ~~~banned }
  let s := forEach m.cpuDirs (doOneCpu env m) s
  forEach s.packages (connectCpuMemTopo 3) s

/-- `free_numa_node_list` and `clear_cpu_tree`. -/
def freeTopology (s : State) : State :=
  { s with
    objs := fun _ => {}, nextObj := 0
    numaNodes := [], packages := [], cacheDomains := [], cpus := []
    cacheDomainCount := 0, cpuOnlineMap := CPU_MASK_NONE }

/-- `clear_obj_slots`; a tree of nodes, packages, caches and CPUs is four levels deep. -/
def clearObjSlots : ℕ → ObjRef → State → State
  | 0, _, s => s
  | fuel + 1, d, s =>
    let s := s.setObj d { s.objs d with slotsLeft := INT_MAX }
    forEach (s.objs d).children (clearObjSlots fuel) s

/-- `clear_slots`. -/
def clearSlots (s : State) : State := forEach s.numaNodes (clearObjSlots 4) s

end Irqbalance
