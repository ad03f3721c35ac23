import Irqbalance.Proofs.Outline

/-! # The order in which directories are read

`readdir` returns the directories of CPUs and nodes in any order. When the CPUs in each other's masks
agree on them and the CPUs of a cache are in one package, the outline of the machine does not depend on
it, and neither does the topology. When packages share a cache domain, its parent is the package of the
CPU that is read last.
-/

namespace Irqbalance

variable {K : Env} {m m' : Machine} {banned : CpuMask}

/-- The topology that is built of the machine. -/
def topology (K : Env) (m : Machine) (banned : CpuMask) (s : State) : State :=
  parseCpuTree K m banned (buildNumaNodeList K m (freeTopology s))

/-- The same files in directories that `readdir` lists in another order. -/
structure Reordered (m m' : Machine) : Prop where
  online : m'.online = m.online
  cpuDirs : m'.cpuDirs.Perm m.cpuDirs
  nodeDirs : m'.nodeDirs.Perm m.nodeDirs

/-- What sysfs shows of a machine in which CPUs agree on the masks that they share. -/
structure AgreedMachine (K : Env) (m : Machine) : Prop where
  /-- CPU directories have different names. -/
  names : (m.cpuDirs.map (·.number)).Nodup
  /-- The masks of a CPU contain it. -/
  own : ∀ d ∈ m.cpuDirs, cpuIsset d.number m.online = true →
    cpuIsset d.number (d.cacheMask K.deepestCache) = true ∧ cpuIsset d.number d.siblings = true
  /-- CPUs in each other's cache mask have the same one. -/
  caches : ∀ d ∈ m.cpuDirs, ∀ d' ∈ m.cpuDirs, cpuIsset d.number m.online = true → cpuIsset d'.number m.online = true →
    cpuIsset d'.number (d.cacheMask K.deepestCache) = true → cpuIsset d.number (d'.cacheMask K.deepestCache) = true →
      d.cacheMask K.deepestCache = d'.cacheMask K.deepestCache
  /-- CPUs in each other's package mask have the same one and the same package id. -/
  packages : ∀ d ∈ m.cpuDirs, ∀ d' ∈ m.cpuDirs, cpuIsset d.number m.online = true →
    cpuIsset d'.number m.online = true → cpuIsset d'.number d.siblings = true → cpuIsset d.number d'.siblings = true →
      d.siblings = d'.siblings ∧ d.physicalPackageId.getD 0 = d'.physicalPackageId.getD 0
  /-- Caches and packages keep to nodes. -/
  numa : K.numaAvail = true → NumaMachine K m

/-- The CPUs of a cache are in one package. -/
def CachesInPackages (K : Env) (m : Machine) : Prop :=
  ∀ d ∈ m.cpuDirs, ∀ d' ∈ m.cpuDirs, cpuIsset d.number m.online = true → cpuIsset d'.number m.online = true →
    d.cacheMask K.deepestCache = d'.cacheMask K.deepestCache → d.siblings = d'.siblings

section Agreeing

variable {s : State} {d d' : CpuDir}

theorem packageMask_within : Within (d.packageMask K s) d.siblings := by
  unfold CpuDir.packageMask
  dsimp only
  split
  · split
    · split
      · exact within_and_left
      · exact BitVec.and_self
    · exact BitVec.and_self
  · exact BitVec.and_self

theorem packageMask_congr (siblings : d.siblings = d'.siblings) (nodeid : d.nodeid K = d'.nodeid K) :
    d.packageMask K s = d'.packageMask K s := by
  unfold CpuDir.siblings at siblings
  simp only [CpuDir.packageMask, siblings, nodeid]

variable (agreed : AgreedMachine K m)
include agreed

/-- The package mask of a CPU contains it, also when it is cut down. -/
theorem AgreedMachine.own_package (entries : nodeEntries s = m.nodes K) (known : d ∈ m.cpuDirs)
    (online : cpuIsset d.number m.online = true) : cpuIsset d.number (d.packageMask K s) = true := by
  cases avail : K.numaAvail with
  | true => exact ((agreed.numa avail).package_homed known online entries avail).1
  | false =>
    have whole : d.packageMask K s = d.siblings := by
      simp only [CpuDir.packageMask, avail, Bool.false_eq_true, if_false]
      rfl
    rw [whole]
    exact (agreed.own d known online).2

/-- CPUs that share a cache domain have the same node. -/
theorem AgreedMachine.same_nodeid (known : d ∈ m.cpuDirs) (known' : d' ∈ m.cpuDirs)
    (online : cpuIsset d.number m.online = true) (online' : cpuIsset d'.number m.online = true)
    (shared : cpuIsset d'.number (d.cacheMask K.deepestCache) = true) : d.nodeid K = d'.nodeid K := by
  cases avail : K.numaAvail with
  | false => simp only [CpuDir.nodeid, avail, Bool.false_eq_true, if_false]
  | true =>
    have numa := agreed.numa avail
    obtain ⟨a, member, _, link, within⟩ := numa.home known online
    have link' := numa.linked d' known' online' a member (within_iff.mp within _ shared)
    simp only [CpuDir.nodeid, avail, if_true, link, link']

/-- On such machines the CPUs of a cache domain agree on their package. -/
theorem AgreedMachine.agreeing (banned : CpuMask) (nested : CachesInPackages K m)
    (entries : nodeEntries s = m.nodes K) : (outline K m banned s).Agreeing := by
  have allowed {d : CpuDir} (usable : d.usable m banned = true) :
      cpuIsset d.number (s.setBans banned).unbannedCpus = true :=
    CpuDir.usable_unbanned (s := s.setBans banned) rfl usable
  have shared {d d' : CpuDir} {f : CpuDir → CpuMask} (usable : d.usable m banned = true)
      (own : cpuIsset d.number (f d) = true)
      (same : f d &&& (s.setBans banned).unbannedCpus = f d' &&& (s.setBans banned).unbannedCpus) :
      cpuIsset d.number (f d') = true := by
    have both : (f d' &&& (s.setBans banned).unbannedCpus).getLsbD d.number = true := by
      rw [← same, BitVec.getLsbD_and, Bool.and_eq_true]
      exact ⟨own, allowed usable⟩
    rw [BitVec.getLsbD_and, Bool.and_eq_true] at both
    exact both.1
  constructor
  · rintro d ⟨known, usable⟩ d' ⟨known', usable'⟩ same
    have online := (Bool.and_eq_true_iff.mp usable).1
    have online' := (Bool.and_eq_true_iff.mp usable').1
    have inside : cpuIsset d.number (d'.cacheMask K.deepestCache) = true :=
      shared usable (agreed.own d known online).1 same
    have inside' : cpuIsset d'.number (d.cacheMask K.deepestCache) = true :=
      shared usable' (agreed.own d' known' online').1 same.symm
    have siblings := nested d known d' known' online online'
      (agreed.caches d known d' known' online online' inside' inside)
    have nodeid := agreed.same_nodeid known known' online online' inside'
    change d.usablePackage K (s.setBans banned) = d'.usablePackage K (s.setBans banned)
    rw [CpuDir.usablePackage, CpuDir.usablePackage, packageMask_congr siblings nodeid]
  · rintro d ⟨known, usable⟩ d' ⟨known', usable'⟩ same
    have online := (Bool.and_eq_true_iff.mp usable).1
    have online' := (Bool.and_eq_true_iff.mp usable').1
    have entries : nodeEntries (s.setBans banned) = m.nodes K := entries
    have inside := shared (f := fun d => d.packageMask K (s.setBans banned)) usable
      (agreed.own_package entries known online) same
    have inside' := shared (f := fun d => d.packageMask K (s.setBans banned)) usable'
      (agreed.own_package entries known' online') same.symm
    exact (agreed.packages d known d' known' online online'
      (within_iff.mp packageMask_within _ inside') (within_iff.mp packageMask_within _ inside)).2

end Agreeing

section Nodes

variable {s s' : State} {nodeid : ℤ}

/-- The number and the mask of a node. -/
def nodeEntry (s : State) (n : ObjRef) : ℤ × CpuMask := ((s.objs n).number, (s.objs n).mask)

/-- `get_numa_node` searches the entries. -/
theorem getNumaNode_entry : (getNumaNode K nodeid s).map (nodeEntry s) =
    (nodeEntries s).find? fun entry => entry.1 == if K.numaAvail then nodeid else NUMA_NO_NODE := by
  unfold nodeEntries
  rw [List.find?_map]
  rfl

theorem nodes_numbers (ids : K.numaAvail = true → (m.nodeDirs.map (·.id)).Nodup) : ((m.nodes K).map Prod.fst).Nodup := by
  unfold Machine.nodes
  split
  · rename_i avail
    rw [List.map_cons, List.map_map, List.nodup_cons]
    constructor
    · intro member
      obtain ⟨a, _, same⟩ := List.mem_map.mp member
      exact absurd same (by simp [NUMA_NO_NODE])
    · have casts : m.nodeDirs.map (Prod.fst ∘ fun a => ((a.id : ℤ), a.mask)) =
          (m.nodeDirs.map (·.id)).map Nat.cast := by
        rw [List.map_map]
        rfl
      rw [casts]
      exact (ids avail).map Int.ofNat_injective
  · exact List.nodup_singleton _

theorem Reordered.nodes (reordered : Reordered m m') : (m'.nodes K).Perm (m.nodes K) := by
  unfold Machine.nodes
  split
  · exact (reordered.nodeDirs.map _).cons _
  · exact .refl _

theorem identity_reordered {n n' : ObjRef} (types : ∀ n ∈ s.numaNodes, (s.objs n).objType = .node)
    (types' : ∀ n ∈ s'.numaNodes, (s'.objs n).objType = .node) (node : n ∈ s.numaNodes) (node' : n' ∈ s'.numaNodes)
    (entry : nodeEntry s' n' = nodeEntry s n) : identity s' n' = identity s n := by
  have number : (s'.objs n').number = (s.objs n).number := congrArg Prod.fst entry
  have mask : (s'.objs n').mask = (s.objs n).mask := congrArg Prod.snd entry
  simp only [identity, types n node, types' n' node', number, mask]

theorem identities_reordered (entries : nodeEntries s = m.nodes K) (entries' : nodeEntries s' = m'.nodes K)
    (reordered : Reordered m m') (types : ∀ n ∈ s.numaNodes, (s.objs n).objType = .node)
    (types' : ∀ n ∈ s'.numaNodes, (s'.objs n).objType = .node) :
    identities s' s'.numaNodes = identities s s.numaNodes := by
  have listed (entry : ℤ × CpuMask) : entry ∈ nodeEntries s' ↔ entry ∈ nodeEntries s := by
    rw [entries, entries']
    exact reordered.nodes.mem_iff
  ext x
  constructor
  · rintro ⟨n', node', rfl⟩
    obtain ⟨n, node, same⟩ := List.mem_map.mp ((listed _).mp (List.mem_map.mpr ⟨n', node', rfl⟩))
    exact ⟨n, node, (identity_reordered types types' node node' same.symm).symm⟩
  · rintro ⟨n, node, rfl⟩
    obtain ⟨n', node', same⟩ := List.mem_map.mp ((listed _).mpr (List.mem_map.mpr ⟨n, node, rfl⟩))
    exact ⟨n', node', identity_reordered types types' node node' same⟩

variable (entries : nodeEntries s = m.nodes K) (entries' : nodeEntries s' = m'.nodes K)
  (numbers : ((m.nodes K).map Prod.fst).Nodup) (reordered : Reordered m m')
include entries entries' numbers reordered

/-- The same node is found in both lists. -/
theorem getNumaNode_reordered (nodeid : ℤ) :
    (getNumaNode K nodeid s').map (nodeEntry s') = (getNumaNode K nodeid s).map (nodeEntry s) := by
  rw [getNumaNode_entry, getNumaNode_entry, entries, entries']
  refine (List.find?_eq_find?_of_perm reordered.nodes.symm ?_).symm
  rintro a ⟨member, found⟩ b ⟨member', found'⟩
  exact List.inj_on_of_nodup_map numbers member member' ((beq_iff_eq.mp found).trans (beq_iff_eq.mp found').symm)

/-- The nodes that a CPU can find, in both lists. -/
theorem getNumaNode_cases (nodeid : ℤ) : (getNumaNode K nodeid s = none ∧ getNumaNode K nodeid s' = none) ∨
    ∃ n n', getNumaNode K nodeid s = some n ∧ getNumaNode K nodeid s' = some n' ∧
      nodeEntry s' n' = nodeEntry s n := by
  have same := getNumaNode_reordered (K := K) entries entries' numbers reordered nodeid
  cases found : getNumaNode K nodeid s with
  | none =>
    rw [found, Option.map_none, Option.map_eq_none_iff] at same
    exact .inl ⟨rfl, same⟩
  | some n =>
    rw [found, Option.map_some, Option.map_eq_some_iff] at same
    obtain ⟨n', found', same⟩ := same
    exact .inr ⟨n, n', rfl, found', same⟩

theorem packageMask_reordered (banned : CpuMask) (d : CpuDir) :
    d.packageMask K (s'.setBans banned) = d.packageMask K (s.setBans banned) := by
  have bans (s : State) : getNumaNode K (d.nodeid K) (s.setBans banned) = getNumaNode K (d.nodeid K) s := rfl
  unfold CpuDir.packageMask
  rw [bans, bans]
  rcases getNumaNode_cases (K := K) entries entries' numbers reordered (d.nodeid K) with
    ⟨none, none'⟩ | ⟨n, n', found, found', entry⟩
  · rw [none, none']
  · have masks : ((s'.setBans banned).objs n').mask = ((s.setBans banned).objs n).mask :=
      congrArg Prod.snd entry
    rw [found, found']
    simp only [masks]

variable (types : ∀ n ∈ s.numaNodes, (s.objs n).objType = .node)
  (types' : ∀ n ∈ s'.numaNodes, (s'.objs n).objType = .node)
include types types'

theorem recordedNode_reordered (nodeid : ℤ) :
    (recordedNode K nodeid s').map (identity s') = (recordedNode K nodeid s).map (identity s) := by
  unfold recordedNode
  split
  · rcases getNumaNode_cases (K := K) entries entries' numbers reordered nodeid with
      ⟨none, none'⟩ | ⟨n, n', found, found', entry⟩
    · rw [none, none']
      rfl
    · have same := identity_reordered types types' (List.mem_of_find?_eq_some found)
        (List.mem_of_find?_eq_some found') entry
      have number : (s'.objs n').number = (s.objs n).number := congrArg Prod.fst entry
      rw [found, found', Option.filter_some, Option.filter_some, number]
      split
      · exact congrArg some same
      · rfl
  · rfl

/-- The outline does not depend on the order of the directories. -/
theorem outline_reordered (banned : CpuMask) : outline K m' banned s' = outline K m banned s := by
  apply Outline.ext
  · ext d
    simp only [outline, Set.mem_ofPred_eq, CpuDir.usable, reordered.online, reordered.cpuDirs.mem_iff]
  · rfl
  · funext d
    have masks := packageMask_reordered (K := K) entries entries' numbers reordered banned d
    exact congrArg (· &&& ~~~banned) masks
  · funext d
    exact recordedNode_reordered entries entries' numbers reordered types types' (d.nodeid K)
  · exact identities_reordered entries entries' reordered types types'

end Nodes

/-- The topology of a machine whose CPUs agree does not depend on the order of the directories. -/
theorem parseCpuTree_reordered (K : Env) (banned : CpuMask) (s s' : State) (agreed : AgreedMachine K m)
    (nested : CachesInPackages K m) (reordered : Reordered m m') :
    SameTopology (topology K m banned s) (topology K m' banned s') := by
  have only := (buildNumaNodeList_onlyNodes (K := K) m (freeTopology_onlyNodes (s := s))).1
  have only' := (buildNumaNodeList_onlyNodes (K := K) m' (freeTopology_onlyNodes (s := s'))).1
  have bare := buildNumaNodeList_bare (K := K) m (freeTopology_bare (s := s))
  have bare' := buildNumaNodeList_bare (K := K) m' (freeTopology_bare (s := s'))
  have entries := buildNumaNodeList_entries (K := K) m (freeTopology_onlyNodes (s := s)) rfl
  have entries' := buildNumaNodeList_entries (K := K) m' (freeTopology_onlyNodes (s := s')) rfl
  have numbers := nodes_numbers fun avail => (agreed.numa avail).ids
  have names' : (m'.cpuDirs.map (·.number)).Nodup := (reordered.cpuDirs.map _).nodup_iff.mpr agreed.names
  have distinct {s : State} {m : Machine} (entries : nodeEntries s = m.nodes K)
      (numbers : ((m.nodes K).map Prod.fst).Nodup) : (s.numaNodes.map fun n => (s.objs n).number).Nodup := by
    rw [← entries, nodeEntries, List.map_map] at numbers
    exact numbers
  have agreeing := agreed.agreeing banned nested entries
  have realised := parseCpuTree_realises m banned only bare agreed.names (distinct entries numbers) agreeing
  have same := outline_reordered entries entries' numbers reordered (fun n node => (only.shaped.numaNodes n node).2)
    (fun n node => (only'.shaped.numaNodes n node).2) banned
  rw [← same] at agreeing
  have numbers' := (reordered.nodes.map Prod.fst).nodup_iff.mpr numbers
  have realised' := parseCpuTree_realises m' banned only' bare' names' (distinct entries' numbers') agreeing
  rw [same] at realised'
  exact realised.same realised'

/-- The directories of a machine, last to first. -/
def Machine.backwards (m : Machine) : Machine :=
  { m with cpuDirs := m.cpuDirs.reverse, nodeDirs := m.nodeDirs.reverse }

theorem Machine.backwards_reordered (m : Machine) : Reordered m m.backwards :=
  ⟨rfl, List.reverse_perm _, List.reverse_perm _⟩

theorem twoNodes_agreed : AgreedMachine { numaAvail := true } twoNodes where
  names := by decide
  own := by decide +kernel
  caches := by decide +kernel
  packages := by decide +kernel
  numa _ := twoNodes_numa

/-- Two nodes of two CPUs, of which one is banned, in both orders. -/
theorem parseCpuTree_reordered_twoNodes :
    SameTopology (topology { numaAvail := true } twoNodes (BitVec.ofNat NR_CPUS 4) {})
      (topology { numaAvail := true } twoNodes.backwards (BitVec.ofNat NR_CPUS 4) {}) :=
  parseCpuTree_reordered _ _ _ _ twoNodes_agreed (by unfold CachesInPackages; decide +kernel)
    twoNodes.backwards_reordered

/-- CPUs 0 and 1 of one node share a cache, and each is a package of its own. -/
def splitCache : Machine where
  online := BitVec.ofNat NR_CPUS 3
  cpuDirs := [
    { number := 0, coreSiblings := some (BitVec.ofNat NR_CPUS 1), physicalPackageId := some 0
      sharedCpuMaps := [some (BitVec.ofNat NR_CPUS 3)], node := some 0 },
    { number := 1, coreSiblings := some (BitVec.ofNat NR_CPUS 2), physicalPackageId := some 1
      sharedCpuMaps := [some (BitVec.ofNat NR_CPUS 3)], node := some 0 }]
  nodeDirs := [⟨0, some (BitVec.ofNat NR_CPUS 3)⟩]

theorem splitCache_agreed : AgreedMachine { numaAvail := true } splitCache where
  names := by decide
  own := by decide +kernel
  caches := by decide +kernel
  packages := by decide +kernel
  numa _ := {
    ids := by decide
    disjoint := by decide +kernel
    linked := by decide +kernel
    own := by decide +kernel
    caches := by decide +kernel
    packages := fun d known _ => .inl (by revert d known; decide +kernel) }

/-- The parent of the shared cache domain is the package of the CPU that is read last. -/
theorem parseCpuTree_reordered_splitCache :
    AgreedMachine { numaAvail := true } splitCache ∧ Reordered splitCache splitCache.backwards ∧
      ¬ SameTopology (topology { numaAvail := true } splitCache CPU_MASK_NONE {})
        (topology { numaAvail := true } splitCache.backwards CPU_MASK_NONE {}) := by
  refine ⟨splitCache_agreed, splitCache.backwards_reordered, fun same => ?_⟩
  have parents := same.parent 3 (by decide +kernel) 3 (by decide +kernel) (by decide +kernel)
  revert parents
  decide +kernel

end Irqbalance
