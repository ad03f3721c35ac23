import Irqbalance.Proofs.CpuList
import Irqbalance.Proofs.Shape
import Irqbalance.Proofs.Thermal

/-! # Machines whose caches and packages keep to NUMA nodes

The cache mask of every CPU lies in one node, and the package mask in one node or in a union of whole
nodes, which `do_one_cpu` then cuts down to the node of the CPU. So all masks that a CPU brings into
the tree lie in its own node.
-/

namespace Irqbalance

variable {K : Env} {m : Machine}

/-- Every CPU of the first mask is in the second. -/
def Within (a b : CpuMask) : Prop := a &&& b = a

instance : DecidableRel Within := fun a b => inferInstanceAs (Decidable (a &&& b = a))

section Masks

variable {a b c : CpuMask} {k : ℕ}

theorem within_iff : Within a b ↔ ∀ k, a.getLsbD k = true → b.getLsbD k = true := by
  unfold Within
  constructor
  · intro within k set
    rw [← within, BitVec.getLsbD_and, Bool.and_eq_true] at set
    exact set.2
  · intro bits
    apply BitVec.eq_of_getLsbD_eq
    intro k _
    rw [BitVec.getLsbD_and]
    cases set : a.getLsbD k with
    | false => rfl
    | true => exact bits k set

theorem Within.trans (first : Within a b) (second : Within b c) : Within a c :=
  within_iff.mpr fun k set => within_iff.mp second k (within_iff.mp first k set)

theorem within_and_left : Within (a &&& b) a := by
  apply within_iff.mpr
  intro k set
  rw [BitVec.getLsbD_and, Bool.and_eq_true] at set
  exact set.1

theorem within_and_right : Within (a &&& b) b := by
  rw [BitVec.and_comm]
  exact within_and_left

theorem within_allOnes : Within a (BitVec.allOnes NR_CPUS) := BitVec.and_allOnes

theorem within_cpumaskOfCpu (bound : k < NR_CPUS) : Within (cpumaskOfCpu k) a ↔ a.getLsbD k = true := by
  rw [within_iff]
  constructor
  · intro within
    exact within k (by rw [getLsbD_cpumaskOfCpu bound]; exact decide_eq_true rfl)
  · intro set i single
    rw [getLsbD_cpumaskOfCpu bound] at single
    rw [of_decide_eq_true single]
    exact set

/-- Two masks with a common CPU meet. -/
theorem cpusIntersects_of_mem (first : a.getLsbD k = true) (second : b.getLsbD k = true) :
    cpusIntersects a b = true := by
  rw [cpusIntersects, bne_iff_ne]
  intro apart
  have bit : (a &&& b).getLsbD k = false := by rw [apart, BitVec.getLsbD_ofNat, Nat.zero_testBit, Bool.and_false]
  rw [BitVec.getLsbD_and, first, second] at bit
  contradiction

/-- A CPU that is used is not banned. -/
theorem CpuDir.usable_allowed {d : CpuDir} {m : Machine} {banned : CpuMask} (usable : d.usable m banned = true) :
    d.number < NR_CPUS ∧ cpuIsset d.number banned = false := by
  obtain ⟨online, allowed⟩ := Bool.and_eq_true_iff.mp usable
  have bound : d.number < NR_CPUS := BitVec.lt_of_getLsbD online
  have own : (cpumaskOfCpu d.number).getLsbD d.number = true := (within_cpumaskOfCpu bound).mp BitVec.and_self
  refine ⟨bound, Bool.eq_false_iff.mpr fun banned => ?_⟩
  rw [Bool.not_eq_true', cpusIntersects_of_mem own banned] at allowed
  contradiction

/-- A larger mask that is no larger in weight is the same mask. -/
theorem within_of_weight (within : Within a b) (weight : cpusWeight b ≤ cpusWeight a) : Within b a := by
  have count (m : CpuMask) : cpusWeight m = ((Finset.range NR_CPUS).filter fun i => m.getLsbD i = true).card := by
    rw [cpusWeight, popcount_eq _ _ m.isLt, ← List.toFinset_card_of_nodup (List.nodup_range.filter _)]
    refine congrArg Finset.card (Finset.ext fun i => ?_)
    rw [List.mem_toFinset, List.mem_filter, List.mem_range, Finset.mem_filter, Finset.mem_range,
      BitVec.testBit_toNat]
  rw [count, count] at weight
  have subset : ((Finset.range NR_CPUS).filter fun i => a.getLsbD i = true) ⊆
      (Finset.range NR_CPUS).filter fun i => b.getLsbD i = true :=
    Finset.monotone_filter_right _ fun i _ set => within_iff.mp within i set
  apply within_iff.mpr
  intro k set
  have member : k ∈ (Finset.range NR_CPUS).filter fun i => a.getLsbD i = true := by
    rw [Finset.eq_of_subset_of_card_le subset weight]
    exact Finset.mem_filter.mpr ⟨Finset.mem_range.mpr (BitVec.lt_of_getLsbD set), set⟩
  exact (Finset.mem_filter.mp member).2

end Masks

/-- The mask of a node; an unreadable file leaves it empty. -/
def NodeDir.mask (a : NodeDir) : CpuMask := a.cpumap.getD CPU_MASK_NONE

theorem getLsbD_union (nodes : List NodeDir) (k : ℕ) :
    (nodes.foldr (fun a mask => a.mask ||| mask) CPU_MASK_NONE).getLsbD k = true ↔
      ∃ a ∈ nodes, a.mask.getLsbD k = true := by
  induction nodes with
  | nil => simp
  | cons a nodes ih => rw [List.foldr_cons, BitVec.getLsbD_or, Bool.or_eq_true, ih, List.exists_mem_cons_iff]

/-- The mask of the package before it is cut down. -/
def CpuDir.siblings (d : CpuDir) : CpuMask := d.coreSiblings.getD (cpumaskOfCpu d.number)

/-- What sysfs shows of a machine in which caches and packages keep to nodes. -/
structure NumaMachine (K : Env) (m : Machine) : Prop where
  /-- Node directories have different names. -/
  ids : (m.nodeDirs.map (·.id)).Nodup
  /-- A CPU is in one node at most. -/
  disjoint : ∀ a ∈ m.nodeDirs, ∀ b ∈ m.nodeDirs, cpusIntersects a.mask b.mask = true → a = b
  /-- The directory of a CPU names the node that the CPU is in. -/
  linked : ∀ d ∈ m.cpuDirs, cpuIsset d.number m.online = true → ∀ a ∈ m.nodeDirs,
    cpuIsset d.number a.mask = true → d.node = some a.id
  /-- The masks of a CPU contain it. -/
  own : ∀ d ∈ m.cpuDirs, cpuIsset d.number m.online = true →
    cpuIsset d.number (d.cacheMask K.deepestCache) = true ∧ cpuIsset d.number d.siblings = true
  /-- Each cache mask lies in one node. -/
  caches : ∀ d ∈ m.cpuDirs, cpuIsset d.number m.online = true →
    ∃ a ∈ m.nodeDirs, Within (d.cacheMask K.deepestCache) a.mask
  /-- Each package mask lies in one node or is a union of whole nodes. -/
  packages : ∀ d ∈ m.cpuDirs, cpuIsset d.number m.online = true →
    (∃ a ∈ m.nodeDirs, Within d.siblings a.mask) ∨
      ∃ nodes ⊆ m.nodeDirs, d.siblings = nodes.foldr (fun a mask => a.mask ||| mask) CPU_MASK_NONE

/-- The nodes that `build_numa_node_list` makes. -/
def Machine.nodes (K : Env) (m : Machine) : List (ℤ × CpuMask) :=
  (NUMA_NO_NODE, BitVec.allOnes NR_CPUS) ::
    if K.numaAvail then m.nodeDirs.map fun a => ((a.id : ℤ), a.mask) else []

/-- Numbers and masks of the nodes of a tree. -/
def nodeEntries (s : State) : List (ℤ × CpuMask) :=
  s.numaNodes.map fun o => ((s.objs o).number, (s.objs o).mask)

section Nodes

variable {s s' : State} {n : ObjRef} {k : ℕ} {d : CpuDir} {mask allowed : CpuMask}

theorem addOneNode_entries (shaped : Shaped s) (nodeid : ℤ) (mask : CpuMask) :
    nodeEntries (addOneNode nodeid mask s) = nodeEntries s ++ [(nodeid, mask)] := by
  have old : ∀ o ∈ s.numaNodes, (addOneNode nodeid mask s).objs o = s.objs o := fun o member =>
    Function.update_of_ne (shaped.numaNodes o member).1.ne _ _
  have new : (addOneNode nodeid mask s).objs s.nextObj =
      { objType := .node, number := nodeid, mask := mask } := Function.update_self ..
  change (s.numaNodes ++ [s.nextObj]).map _ = _
  rw [List.map_append, List.map_singleton, new]
  congr 1
  exact List.map_congr_left fun o member => by rw [old o member]

/-- `build_numa_node_list` from an empty list. -/
theorem buildNumaNodeList_entries (m : Machine) (only : OnlyNodes s) (none : s.numaNodes = []) :
    nodeEntries (buildNumaNodeList K m s) = m.nodes K := by
  have append (dirs : List NodeDir) (s : State) (only : OnlyNodes s) :
      nodeEntries (forEach dirs (fun a => addOneNode a.id (a.cpumap.getD CPU_MASK_NONE)) s) =
        nodeEntries s ++ dirs.map fun a => ((a.id : ℤ), a.mask) := by
    induction dirs generalizing s with
    | nil => exact (List.append_nil _).symm
    | cons a dirs ih =>
      rw [forEach_cons, ih _ (addOneNode_onlyNodes only _ _), addOneNode_entries only.shaped, List.map_cons,
        List.append_assoc]
      rfl
  have first : nodeEntries (addOneNode NUMA_NO_NODE (BitVec.allOnes NR_CPUS) s) =
      [(NUMA_NO_NODE, BitVec.allOnes NR_CPUS)] := by
    rw [addOneNode_entries only.shaped, nodeEntries, none]
    rfl
  unfold buildNumaNodeList Machine.nodes
  dsimp only
  split
  · rw [append _ _ (addOneNode_onlyNodes only _ _), first]
    rfl
  · exact first

/-- A node is the unspecified one or one of the machine. -/
theorem node_cases (entries : nodeEntries s = m.nodes K) (node : n ∈ s.numaNodes) :
    ((s.objs n).number = NUMA_NO_NODE ∧ (s.objs n).mask = BitVec.allOnes NR_CPUS) ∨
      (K.numaAvail = true ∧ ∃ a ∈ m.nodeDirs, (s.objs n).number = a.id ∧ (s.objs n).mask = a.mask) := by
  have member : ((s.objs n).number, (s.objs n).mask) ∈ m.nodes K := by
    rw [← entries]
    exact List.mem_map.mpr ⟨n, node, rfl⟩
  rcases List.mem_cons.mp member with unspecified | real
  · exact .inl (Prod.mk.inj unspecified)
  · split at real
    · rename_i avail
      obtain ⟨a, known, same⟩ := List.mem_map.mp real
      exact .inr ⟨avail, a, known, (Prod.mk.inj same).1.symm, (Prod.mk.inj same).2.symm⟩
    · contradiction

theorem NumaMachine.same_id (numa : NumaMachine K m) {a b : NodeDir} (first : a ∈ m.nodeDirs)
    (second : b ∈ m.nodeDirs) (same : a.id = b.id) : a = b :=
  List.inj_on_of_nodup_map numa.ids first second same

/-- The node that a directory names. -/
theorem getNumaNode_mask (numa : NumaMachine K m) (entries : nodeEntries s = m.nodes K)
    (avail : K.numaAvail = true) {a : NodeDir} (known : a ∈ m.nodeDirs) (found : getNumaNode K a.id s = some n) :
    (s.objs n).mask = a.mask := by
  have number : (s.objs n).number = a.id := by
    have search := List.find?_some found
    rw [avail] at search
    exact beq_iff_eq.mp search
  rcases node_cases entries (List.mem_of_find?_eq_some found) with ⟨unspecified, _⟩ | ⟨_, b, member, own, mask⟩
  · rw [unspecified, NUMA_NO_NODE] at number
    omega
  · rw [mask, numa.same_id member known (by omega)]

/-- The node of the machine is in the list. -/
theorem getNumaNode_isSome (entries : nodeEntries s = m.nodes K) (avail : K.numaAvail = true) {a : NodeDir}
    (known : a ∈ m.nodeDirs) : ∃ n, getNumaNode K a.id s = some n := by
  have member : ((a.id : ℤ), a.mask) ∈ nodeEntries s := by
    rw [entries, Machine.nodes, if_pos avail]
    exact List.mem_cons_of_mem _ (List.mem_map.mpr ⟨a, known, rfl⟩)
  obtain ⟨o, node, same⟩ := List.mem_map.mp member
  refine Option.isSome_iff_exists.mp (List.find?_isSome.mpr ⟨o, node, ?_⟩)
  rw [avail]
  exact beq_iff_eq.mpr (Prod.mk.inj same).1

/-- The mask contains the CPU and lies in the node of the CPU. -/
def Homed (K : Env) (m : Machine) (k : ℕ) (mask : CpuMask) : Prop :=
  K.numaAvail = true → mask.getLsbD k = true ∧ ∃ a ∈ m.nodeDirs, cpuIsset k a.mask = true ∧ Within mask a.mask

theorem Homed.and (homed : Homed K m k mask) (set : allowed.getLsbD k = true) : Homed K m k (mask &&& allowed) := by
  intro avail
  obtain ⟨own, a, known, inside, within⟩ := homed avail
  refine ⟨?_, a, known, inside, within_and_left.trans within⟩
  rw [BitVec.getLsbD_and, own, set]
  rfl

variable (numa : NumaMachine K m)
include numa

/-- A CPU is in one node. -/
theorem NumaMachine.same_node {a b : NodeDir} (first : a ∈ m.nodeDirs) (second : b ∈ m.nodeDirs)
    (inFirst : cpuIsset k a.mask = true) (inSecond : cpuIsset k b.mask = true) : a = b :=
  numa.disjoint a first b second (cpusIntersects_of_mem inFirst inSecond)

variable (known : d ∈ m.cpuDirs) (online : cpuIsset d.number m.online = true)
include known online

/-- The node of an online CPU. -/
theorem NumaMachine.home : ∃ a ∈ m.nodeDirs, cpuIsset d.number a.mask = true ∧ d.node = some a.id ∧
    Within (d.cacheMask K.deepestCache) a.mask := by
  obtain ⟨a, member, within⟩ := numa.caches d known online
  have inside := within_iff.mp within _ (numa.own d known online).1
  exact ⟨a, member, inside, numa.linked d known online a member inside, within⟩

theorem NumaMachine.cpu_homed : Homed K m d.number (cpumaskOfCpu d.number) := by
  obtain ⟨a, member, inside, _, _⟩ := numa.home known online
  have bound : d.number < NR_CPUS := BitVec.lt_of_getLsbD online
  exact fun _ => ⟨(within_cpumaskOfCpu bound).mp (BitVec.and_self), a, member, inside,
    (within_cpumaskOfCpu bound).mpr inside⟩

theorem NumaMachine.cache_homed : Homed K m d.number (d.cacheMask K.deepestCache) := by
  obtain ⟨a, member, inside, _, within⟩ := numa.home known online
  exact fun _ => ⟨(numa.own d known online).1, a, member, inside, within⟩

/-- A package that spans several nodes is cut down to the node of the CPU. -/
theorem NumaMachine.package_homed (entries : nodeEntries s = m.nodes K) :
    Homed K m d.number (d.packageMask K s) := by
  intro avail
  obtain ⟨a, member, inside, link, _⟩ := numa.home known online
  obtain ⟨n, found⟩ := getNumaNode_isSome entries avail member
  have mask : (s.objs n).mask = a.mask := getNumaNode_mask numa entries avail member found
  have own : d.siblings.getLsbD d.number = true := (numa.own d known online).2
  have nodeid : d.nodeid K = a.id := by rw [CpuDir.nodeid, if_pos avail, link]
  have cut : d.packageMask K s =
      if cpusWeight d.siblings > cpusWeight a.mask then d.siblings &&& a.mask else d.siblings := by
    rw [CpuDir.packageMask, if_pos avail, nodeid, found]
    dsimp only
    rw [mask]
    rfl
  rw [cut]
  split
  · refine ⟨?_, a, member, inside, within_and_right⟩
    rw [BitVec.getLsbD_and, own]
    exact inside
  · rename_i light
    refine ⟨own, a, member, inside, ?_⟩
    rcases numa.packages d known online with ⟨b, other, within⟩ | ⟨nodes, whole, union⟩
    · rwa [numa.same_node member other inside (within_iff.mp within _ own)]
    · have covered := own
      rw [union, getLsbD_union] at covered
      obtain ⟨b, listed, set⟩ := covered
      obtain rfl := numa.same_node member (whole listed) inside set
      refine within_of_weight (within_iff.mpr fun k bit => ?_) (not_lt.mp light)
      rw [union, getLsbD_union]
      exact ⟨a, listed, bit⟩

end Nodes

end Irqbalance
