import Irqbalance.Proofs.NumaMachine

/-! # Links of the tree do not leave a NUMA node

An object that is linked to another one, as its child or as its parent below a node, lies in every
node of the machine that the other one lies in. This holds throughout `parse_cpu_tree`.
-/

namespace Irqbalance

variable {K : Env} {m : Machine}

/-- A node other than the unspecified one. -/
def RealNode (s : State) (n : ObjRef) : Prop := n ∈ s.numaNodes ∧ (s.objs n).number ≠ NUMA_NO_NODE

/-- The second object lies in every node that the first lies in. -/
def Follows (s : State) (a b : ObjRef) : Prop :=
  ∀ n, RealNode s n → Within (s.objs a).mask (s.objs n).mask → Within (s.objs b).mask (s.objs n).mask

/-- Links stay in the node. -/
structure Nested (s : State) : Prop where
  child : ∀ p, ∀ c ∈ (s.objs p).children, Follows s p c
  parent : ∀ c p, (s.objs c).parent = some p → (s.objs p).objType ≠ .node → Follows s c p
  top : ∀ o, (s.objs o).objType = .node → (s.objs o).parent = none

/-- The same while the tree grows, and with the nodes that are recorded for an object. -/
structure Nesting (s : State) : Prop extends Nested s where
  recorded : ∀ o, ∀ n ∈ (s.objs o).numaNodes, Within (s.objs o).mask (s.objs n).mask
  allocated : ∀ c p, (s.objs c).parent = some p → p < s.nextObj

section Links

variable {s s' : State} {o a b c : ObjRef} {obj : TopoObj}

theorem follows_congr (numaNodes : s'.numaNodes = s.numaNodes)
    (number : ∀ n ∈ s.numaNodes, (s'.objs n).number = (s.objs n).number)
    (mask : ∀ n ∈ s.numaNodes, (s'.objs n).mask = (s.objs n).mask) (first : (s'.objs a).mask = (s.objs a).mask)
    (second : (s'.objs b).mask = (s.objs b).mask) : Follows s' a b ↔ Follows s a b := by
  unfold Follows RealNode
  rw [numaNodes, first, second]
  refine forall_congr' fun n => ⟨fun follows real within => ?_, fun follows real within => ?_⟩
  · rw [number n real.1, mask n real.1] at follows
    exact follows real within
  · rw [number n real.1] at real
    rw [mask n real.1] at within ⊢
    exact follows real within

theorem Linked.follows (linked : Linked s s') : Follows s' a b ↔ Follows s a b :=
  follows_congr linked.numaNodes (fun n _ => linked.number n) (fun n _ => linked.mask n) (linked.mask a)
    (linked.mask b)

theorem Follows.trans (first : Follows s a b) (second : Follows s b c) : Follows s a c :=
  fun n real within => second n real (first n real within)

theorem follows_of_within (within : Within (s.objs b).mask (s.objs a).mask) : Follows s a b :=
  fun _ _ inside => within.trans inside

/-- Storing back an object that has kept its type, its number and its mask. -/
theorem Nesting.setObj (nesting : Nesting s) (objType : obj.objType = (s.objs o).objType)
    (number : obj.number = (s.objs o).number) (mask : obj.mask = (s.objs o).mask)
    (children : ∀ c ∈ obj.children, Follows s o c)
    (parent : ∀ p, obj.parent = some p → p < s.nextObj ∧ ((s.objs p).objType ≠ .node → Follows s o p))
    (top : obj.objType = .node → obj.parent = none)
    (recorded : ∀ n ∈ obj.numaNodes, Within obj.mask (s.objs n).mask) : Nesting (s.setObj o obj) := by
  have masks := setObj_field (s := s) (o := o) TopoObj.mask mask
  have types := setObj_field (s := s) (o := o) TopoObj.objType objType
  have follows (a b : ObjRef) : Follows (s.setObj o obj) a b ↔ Follows s a b :=
    follows_congr rfl (fun n _ => setObj_field TopoObj.number number n) (fun n _ => masks n) (masks a) (masks b)
  have self : (s.setObj o obj).objs o = obj := Function.update_self ..
  have other {o' : ObjRef} (different : o' ≠ o) : (s.setObj o obj).objs o' = s.objs o' :=
    Function.update_of_ne different ..
  constructor
  · constructor
    · intro p c member
      rw [follows]
      by_cases own : p = o
      · subst own
        rw [self] at member
        exact children c member
      · rw [other own] at member
        exact nesting.child p c member
    · intro c p link below
      rw [follows]
      rw [types] at below
      by_cases own : c = o
      · subst own
        rw [self] at link
        exact (parent p link).2 below
      · rw [other own] at link
        exact nesting.parent c p link below
    · intro o' node
      by_cases own : o' = o
      · subst own
        rw [self] at node ⊢
        exact top node
      · rw [other own] at node ⊢
        exact nesting.top o' node
  · intro o' n member
    rw [masks n]
    by_cases own : o' = o
    · subst own
      rw [self] at member ⊢
      exact recorded n member
    · rw [other own] at member ⊢
      exact nesting.recorded o' n member
  · intro c p link
    change p < s.nextObj
    by_cases own : c = o
    · subst own
      rw [self] at link
      exact (parent p link).1
    · rw [other own] at link
      exact nesting.allocated c p link

/-- A new child of an object. -/
theorem Nesting.addChild (nesting : Nesting s) (follows : Follows s o c) : Nesting (s.addChild o c) := by
  refine nesting.setObj rfl rfl rfl (fun c' member => ?_)
    (fun p link => ⟨nesting.allocated o p link, nesting.parent o p link⟩) (nesting.top o) (nesting.recorded o)
  rcases List.mem_append.mp member with old | new
  · exact nesting.child o c' old
  · rw [List.mem_singleton.mp new]
    exact follows

/-- A new parent of an object that is no node. -/
theorem Nesting.setParent {p : ObjRef} (nesting : Nesting s) (other : (s.objs o).objType ≠ .node)
    (allocated : p < s.nextObj) (follows : (s.objs p).objType ≠ .node → Follows s o p) :
    Nesting (s.setObj o { s.objs o with parent := some p }) := by
  refine nesting.setObj rfl rfl rfl (nesting.child o) (fun p' link => ?_) (fun node => absurd node other)
    (nesting.recorded o)
  obtain rfl := Option.some.inj link
  exact ⟨allocated, follows⟩

theorem ObjType.nests.ne_node {outer inner : ObjType} (nests : outer.nests inner) : inner ≠ .node := by
  rintro rfl
  cases outer <;> exact nests

theorem adoptChild_nesting (nesting : Nesting s) (shaped : Shaped s) (allocated : o < s.nextObj)
    (known : c < s.nextObj) (nests : (s.objs o).objType.nests (s.objs c).objType) (down : Follows s o c)
    (up : Follows s c o) : Nesting (adoptChild o c s) := by
  unfold adoptChild
  split
  · exact nesting
  · have linked := shaped.addChild allocated known nests
    refine (nesting.addChild down).setParent ?_ ?_ fun _ => linked.follows.mpr up
    · rw [linked.objType]
      exact nests.ne_node
    · rw [linked.nextObj]
      exact allocated

/-- A new object, before anything is linked to it. -/
theorem Nesting.created (nesting : Nesting s) (shaped : Shaped s) (created : Created s s' obj)
    (numaNodes : s'.numaNodes = s.numaNodes) (children : obj.children = []) (parent : obj.parent = none)
    (none : obj.numaNodes = []) : Nesting s' := by
  have old {o' : ObjRef} (known : o' < s.nextObj) : s'.objs o' = s.objs o' := created.old known
  have follows {a b : ObjRef} (first : a < s.nextObj) (second : b < s.nextObj) : Follows s' a b ↔ Follows s a b :=
    follows_congr numaNodes (fun n node => by rw [old (shaped.numaNodes n node).1])
      (fun n node => by rw [old (shaped.numaNodes n node).1]) (by rw [old first]) (by rw [old second])
  have linked {o' : ObjRef} (different : o' ≠ s.nextObj) : s'.objs o' = s.objs o' := by
    rw [created.objs, Function.update_of_ne different]
  have known {o' : ObjRef} (different : o' ≠ s.nextObj) (used : s.objs o' ≠ {}) : o' < s.nextObj := by
    by_contra fresh
    exact used ((shaped.obj o').fresh (not_lt.mp fresh))
  constructor
  · constructor
    · intro p c member
      by_cases own : p = s.nextObj
      · subst own
        rw [created.new, children] at member
        contradiction
      · rw [linked own] at member
        have used : s.objs p ≠ {} := by
          intro blank
          rw [blank] at member
          contradiction
        rw [follows (known own used) ((shaped.obj p).children c member).1]
        exact nesting.child p c member
    · intro c p link below
      by_cases own : c = s.nextObj
      · subst own
        rw [created.new, parent] at link
        contradiction
      · rw [linked own] at link
        have used : s.objs c ≠ {} := by
          intro blank
          rw [blank] at link
          contradiction
        have allocated := nesting.allocated c p link
        rw [old allocated] at below
        rw [follows (known own used) allocated]
        exact nesting.parent c p link below
    · intro o' node
      by_cases own : o' = s.nextObj
      · subst own
        rw [created.new, parent]
      · rw [linked own] at node ⊢
        exact nesting.top o' node
  · intro o' n member
    by_cases own : o' = s.nextObj
    · subst own
      rw [created.new, none] at member
      contradiction
    · rw [linked own] at member ⊢
      rw [old (shaped.numaNodes n ((shaped.obj o').numaNodes n member)).1]
      exact nesting.recorded o' n member
  · intro c p link
    rw [created.nextObj]
    by_cases own : c = s.nextObj
    · subst own
      rw [created.new, parent] at link
      contradiction
    · rw [linked own] at link
      exact Nat.lt_succ_of_lt (nesting.allocated c p link)

/-- A node that contains the object is recorded for it. -/
theorem Nesting.addNode {node : ObjRef} (nesting : Nesting s) (within : Within (s.objs o).mask (s.objs node).mask) :
    Nesting (s.setObj o { s.objs o with numaNodes := (s.objs o).numaNodes ++ [node] }) := by
  refine nesting.setObj rfl rfl rfl (nesting.child o)
    (fun p link => ⟨nesting.allocated o p link, nesting.parent o p link⟩) (nesting.top o) fun n member => ?_
  rcases List.mem_append.mp member with old | new
  · exact nesting.recorded o n old
  · rw [List.mem_singleton.mp new]
    exact within

theorem addNumaNodeToTopoObj_nesting {nodeid : ℤ} (nesting : Nesting s) (shaped : Shaped s)
    (allocated : o < s.nextObj) (attachable : (s.objs o).objType = .package ∨ (s.objs o).objType = .cache)
    (inside : ∀ n, getNumaNode K nodeid s = some n → Within (s.objs o).mask (s.objs n).mask) :
    Nesting (addNumaNodeToTopoObj K o nodeid s) := by
  unfold addNumaNodeToTopoObj
  cases found : getNumaNode K nodeid s with
  | none => exact nesting
  | some node =>
    have known : node ∈ s.numaNodes := List.mem_of_find?_eq_some found
    obtain ⟨allocatedNode, nodeType⟩ := shaped.numaNodes node known
    have within := inside node found
    dsimp only
    split
    · exact nesting
    obtain ⟨s₁, recorded⟩ : ∃ s₁, s₁ = if node ∈ (s.objs o).numaNodes then s
      else s.setObj o { s.objs o with numaNodes := (s.objs o).numaNodes ++ [node] } := ⟨_, rfl⟩
    have listed : Nesting s₁ ∧ Linked s s₁ := by
      rw [recorded]
      split
      · exact ⟨nesting, .refl shaped⟩
      · exact ⟨nesting.addNode within, shaped.addNode allocated known attachable⟩
    rw [← recorded]
    obtain ⟨nesting₁, linked⟩ := listed
    split
    · rename_i package
      split
      · exact nesting₁
      · have package : (s₁.objs o).objType = .package := by
          simp only [Bool.and_eq_true, beq_iff_eq] at package
          exact package.2
        have added := linked.shaped.addChild (o := node) (c := o) (by rw [linked.nextObj]; exact allocatedNode)
          (by rw [linked.nextObj]; exact allocated) (by rw [linked.objType, nodeType, package]; trivial)
        have down : Follows s₁ node o := follows_of_within (by rw [linked.mask, linked.mask]; exact within)
        refine (nesting₁.addChild down).setParent ?_ ?_ fun below => absurd ?_ below
        · rw [added.objType, package]
          decide
        · rw [added.nextObj, linked.nextObj]
          exact allocatedNode
        · rw [added.objType, linked.objType]
          exact nodeType
    · exact nesting₁

theorem recordNode_nesting {nodeid : ℤ} (nesting : Nesting s) (shaped : Shaped s) (allocated : o < s.nextObj)
    (attachable : (s.objs o).objType = .package ∨ (s.objs o).objType = .cache)
    (inside : ∀ n, getNumaNode K nodeid s = some n → Within (s.objs o).mask (s.objs n).mask) :
    Nesting (recordNode K o nodeid s) := by
  unfold recordNode
  split
  · exact addNumaNodeToTopoObj_nesting nesting shaped allocated attachable inside
  · exact nesting

/-- `connect_cpu_mem_topo` attaches an object to a node that contains it. -/
theorem connectCpuMemTopo_nesting (fuel : ℕ) {p : ObjRef} (nesting : Nesting s) (shaped : Shaped s)
    (allocated : p < s.nextObj) : Nesting (connectCpuMemTopo fuel p s) := by
  induction fuel generalizing p s with
  | zero => exact nesting
  | succ fuel ih =>
    have own := shaped.obj p
    rw [connectCpuMemTopo]
    split
    · exact nesting
    · rename_i node one
      have recorded : node ∈ (s.objs p).numaNodes := by rw [one]; exact List.mem_singleton_self _
      have known := own.numaNodes node recorded
      obtain ⟨allocatedNode, nodeType⟩ := shaped.numaNodes node known
      obtain ⟨s₁, parented⟩ : ∃ s₁, s₁ =
        if (s.objs p).objType == .package && (s.objs p).parent.isNone
          then s.setObj p { s.objs p with parent := some node } else s := ⟨_, rfl⟩
      have listed : Nesting s₁ ∧ Linked s s₁ := by
        rw [parented]
        split
        · rename_i package
          simp only [Bool.and_eq_true, beq_iff_eq] at package
          refine ⟨nesting.setParent ?_ allocatedNode fun below => absurd nodeType below,
            shaped.setParent allocated (some node)⟩
          rw [package.1]
          decide
        · exact ⟨nesting, .refl shaped⟩
      dsimp only
      rw [← parented]
      obtain ⟨nesting₁, linked⟩ := listed
      split
      · exact nesting₁
      · refine nesting₁.addChild (follows_of_within ?_)
        rw [linked.mask, linked.mask]
        exact nesting.recorded p node recorded
    · have walk := forEach_preserves (I := fun s' => Nesting s' ∧ Linked s s')
        (f := connectCpuMemTopo fuel) (l := (s.objs p).children) ⟨nesting, .refl shaped⟩
        fun c member s' both => by
          have known : c < s'.nextObj := by rw [both.2.nextObj]; exact (own.children c member).1
          exact ⟨ih both.1 both.2.shaped known, both.2.trans (connectCpuMemTopo_linked fuel both.2.shaped known)⟩
      exact walk.1

end Links

section Building

variable {s s' : State} {o c cpu cache : ObjRef} {d : CpuDir} {mask : CpuMask}

theorem Extended.entries (extended : Extended s s') (shaped : Shaped s) : nodeEntries s' = nodeEntries s := by
  unfold nodeEntries
  rw [extended.numaNodes]
  apply List.map_congr_left
  intro n node
  have allocated := (shaped.numaNodes n node).1
  rw [extended.number n allocated, extended.mask n allocated]

variable (numa : K.numaAvail = true → NumaMachine K m) (entries : nodeEntries s = m.nodes K)
include numa entries

/-- Objects that a CPU brings into the tree follow each other. -/
theorem follows_of_homed {k : ℕ} (first : Homed K m k (s.objs o).mask) (second : Homed K m k (s.objs c).mask) :
    Follows s o c := by
  intro n real within
  rcases node_cases entries real.1 with ⟨unspecified, _⟩ | ⟨avail, b, member, _, mask⟩
  · exact absurd unspecified real.2
  · rw [mask] at within ⊢
    obtain ⟨a, known, inside, own⟩ := (second avail).2
    have set := within_iff.mp within k (first avail).1
    rwa [(numa avail).same_node member known set inside]

/-- The node that is recorded contains the object. -/
theorem within_of_homed (known : d ∈ m.cpuDirs) (online : cpuIsset d.number m.online = true)
    (homed : Homed K m d.number (s.objs o).mask) {n : ObjRef} (found : getNumaNode K (d.nodeid K) s = some n) :
    Within (s.objs o).mask (s.objs n).mask := by
  rcases node_cases entries (List.mem_of_find?_eq_some found) with ⟨_, all⟩ | ⟨avail, _⟩
  · rw [all]
    exact within_allOnes
  · obtain ⟨_, a, member, inside, within⟩ := homed avail
    rw [CpuDir.nodeid, if_pos avail, (numa avail).linked d known online a member inside] at found
    rwa [getNumaNode_mask (numa avail) entries avail member found]

/-- What `add_cpu_to_cache_domain` and `add_cache_domain_to_package` do with the object they find. -/
theorem attach_nesting (known : d ∈ m.cpuDirs) (online : cpuIsset d.number m.online = true)
    (nesting : Nesting s) (shaped : Shaped s) (allocated : o < s.nextObj) (allocatedChild : c < s.nextObj)
    (attachable : (s.objs o).objType = .package ∨ (s.objs o).objType = .cache)
    (nests : (s.objs o).objType.nests (s.objs c).objType) (homed : Homed K m d.number (s.objs o).mask)
    (homedChild : Homed K m d.number (s.objs c).mask) :
    Nesting (recordNode K o (d.nodeid K) (adoptChild o c s)) := by
  have linked := adoptChild_linked shaped allocated allocatedChild nests
  have adopted := adoptChild_nesting nesting shaped allocated allocatedChild nests
    (follows_of_homed numa entries homed homedChild) (follows_of_homed numa entries homedChild homed)
  have same : nodeEntries (adoptChild o c s) = m.nodes K := (linked.extended.entries shaped).trans entries
  refine recordNode_nesting adopted linked.shaped (by rw [linked.nextObj]; exact allocated)
    (by rw [linked.objType]; exact attachable) fun n found => ?_
  refine within_of_homed numa same known online ?_ found
  rw [linked.mask]
  exact homed

omit numa entries in
theorem findCacheDomain_nesting (mask : CpuMask) (nesting : Nesting s) (shaped : Shaped s) :
    Nesting (findCacheDomain mask s).2 ∧
      ((findCacheDomain mask s).2.objs (findCacheDomain mask s).1).mask = mask := by
  rcases findCacheDomain_cases (s := s) mask with ⟨same, _, found⟩ | ⟨_, fresh, _, created⟩
  · rw [same]
    exact ⟨nesting, found⟩
  · refine ⟨nesting.created shaped created (findCacheDomain_frame mask).2.1 rfl rfl rfl, ?_⟩
    rw [fresh, created.new]

omit numa entries in
theorem findPackage_nesting (packageid : ℤ) (mask : CpuMask) (nesting : Nesting s) (shaped : Shaped s) :
    Nesting (findPackage packageid mask s).2 ∧
      ((findPackage packageid mask s).2.objs (findPackage packageid mask s).1).mask = mask := by
  rcases findPackage_cases (s := s) packageid mask with ⟨same, _, found⟩ | ⟨_, fresh, _, created⟩
  · rw [same]
    exact ⟨nesting, found⟩
  · refine ⟨nesting.created shaped created (findPackage_frame packageid mask).2.1 rfl rfl rfl, ?_⟩
    rw [fresh, created.new]

theorem addCpuToCacheDomain_nesting (known : d ∈ m.cpuDirs) (online : cpuIsset d.number m.online = true)
    (nesting : Nesting s) (shaped : Shaped s) (allocated : cpu < s.nextObj) (cpuType : (s.objs cpu).objType = .cpu)
    (usable : mask &&& s.bannedCpus = CPU_MASK_NONE) (homedCpu : Homed K m d.number (s.objs cpu).mask)
    (homed : Homed K m d.number mask) :
    Nesting (addCpuToCacheDomain K cpu mask (d.nodeid K) s).2 ∧
      ((addCpuToCacheDomain K cpu mask (d.nodeid K) s).2.objs
        (addCpuToCacheDomain K cpu mask (d.nodeid K) s).1).mask = mask := by
  obtain ⟨found, member⟩ := findCacheDomain_extended shaped usable
  obtain ⟨nesting₁, own⟩ := findCacheDomain_nesting mask nesting shaped
  unfold addCpuToCacheDomain
  generalize findCacheDomain mask s = result at found member nesting₁ own ⊢
  obtain ⟨cache, s₁⟩ := result
  obtain ⟨allocatedCache, cacheType⟩ := found.shaped.cacheDomains cache member
  have nests : (s₁.objs cache).objType.nests (s₁.objs cpu).objType := by
    rw [cacheType, found.objType cpu allocated, cpuType]
    trivial
  have same : nodeEntries s₁ = m.nodes K := (found.entries shaped).trans entries
  dsimp only at own ⊢
  have attached := attach_nesting numa same known online nesting₁ found.shaped allocatedCache
    (allocated.trans_le found.nextObj) (.inr cacheType) nests (by rw [own]; exact homed)
    (by rw [found.mask cpu allocated]; exact homedCpu)
  have adopted := adoptChild_linked found.shaped allocatedCache (allocated.trans_le found.nextObj) nests
  have recorded := recordNode_linked (K := K) (o := cache) adopted.shaped
    (by rw [adopted.nextObj]; exact allocatedCache) (d.nodeid K) (by rw [adopted.objType]; exact .inr cacheType)
  exact ⟨attached, by rw [recorded.mask, adopted.mask, own]⟩

theorem addCacheDomainToPackage_nesting (packageid : ℤ) (known : d ∈ m.cpuDirs)
    (online : cpuIsset d.number m.online = true) (nesting : Nesting s) (shaped : Shaped s)
    (member : cache ∈ s.cacheDomains) (usable : mask &&& s.bannedCpus = CPU_MASK_NONE)
    (homedCache : Homed K m d.number (s.objs cache).mask) (homed : Homed K m d.number mask) :
    Nesting (addCacheDomainToPackage K cache packageid mask (d.nodeid K) s) := by
  obtain ⟨found, listed⟩ := findPackage_extended shaped packageid usable
  obtain ⟨nesting₁, own⟩ := findPackage_nesting packageid mask nesting shaped
  unfold addCacheDomainToPackage
  generalize findPackage packageid mask s = result at found listed nesting₁ own ⊢
  obtain ⟨package, s₁⟩ := result
  obtain ⟨allocated, packageType⟩ := found.shaped.packages package listed
  obtain ⟨allocatedCache, cacheType⟩ := found.shaped.cacheDomains cache (found.cacheDomains cache member)
  have same : nodeEntries s₁ = m.nodes K := (found.entries shaped).trans entries
  dsimp only at own ⊢
  exact attach_nesting numa same known online nesting₁ found.shaped allocated allocatedCache (.inl packageType)
    (by rw [packageType, cacheType]; trivial) (by rw [own]; exact homed)
    (by rw [found.mask cache (shaped.cacheDomains cache member).1]; exact homedCache)

omit numa entries in
/-- A CPU that is used is in `unbanned_cpus`. -/
theorem CpuDir.usable_unbanned (banning : Banning s) (usable : d.usable m s.bannedCpus = true) :
    s.unbannedCpus.getLsbD d.number = true := by
  obtain ⟨bound, allowed⟩ := CpuDir.usable_allowed usable
  unfold Banning at banning
  rw [banning, BitVec.getLsbD_not, decide_eq_true bound, Bool.true_and, Bool.not_eq_true']
  exact allowed

theorem doOneCpu_nesting (known : d ∈ m.cpuDirs) (nesting : Nesting s) (shaped : Shaped s) (banning : Banning s) :
    Nesting (doOneCpu K m d s) := by
  cases usable : d.usable m s.bannedCpus with
  | false =>
    rcases doOneCpu_unusable (K := K) m d usable with same | online
    · rw [same]
      exact nesting
    · rw [online]
      exact ⟨⟨nesting.child, nesting.parent, nesting.top⟩, nesting.recorded, nesting.allocated⟩
  | true =>
    have online := (Bool.and_eq_true_iff.mp usable).1
    have set := CpuDir.usable_unbanned banning usable
    have homedCpu : Homed K m d.number (cpumaskOfCpu d.number) :=
      fun avail => (numa avail).cpu_homed known online avail
    have homedCache : Homed K m d.number (d.usableCache K s) :=
      Homed.and (fun avail => (numa avail).cache_homed known online avail) set
    have homedPackage : Homed K m d.number (d.usablePackage K s) :=
      Homed.and (fun avail => (numa avail).package_homed known online entries avail) set
    have created := setOnline_created (s := s) d
    have allocated := allocCpu_extended m d shaped usable
    obtain ⟨cached, member, _, _⟩ := cacheStep_extended (K := K) m d shaped banning usable
    have nesting₁ : Nesting ((s.setOnline d).allocObj d.obj).2 :=
      nesting.created shaped created rfl rfl rfl rfl
    have cpuObj : ((s.setOnline d).allocObj d.obj).2.objs s.nextObj = d.obj := created.new
    obtain ⟨nesting₂, own⟩ := addCpuToCacheDomain_nesting numa ((allocated.entries shaped).trans entries) known
      online nesting₁ allocated.shaped (Nat.lt_succ_self s.nextObj) (congrArg TopoObj.objType cpuObj)
      (banning.and_unbanned (d.cacheMask K.deepestCache)) (by rw [cpuObj]; exact homedCpu) homedCache
    have packaged := addCacheDomainToPackage_nesting numa ((cached.entries shaped).trans entries)
      (d.physicalPackageId.getD 0) known online nesting₂ cached.shaped member
      (by rw [cached.bannedCpus]; exact banning.and_unbanned (d.packageMask K s))
      (by rw [show ((cacheStep K d s).2.objs (cacheStep K d s).1).mask = _ from own]; exact homedCache)
      homedPackage
    rw [doOneCpu_usable m d usable]
    exact ⟨⟨packaged.child, packaged.parent, packaged.top⟩, packaged.recorded, packaged.allocated⟩

/-- The tree that `parse_cpu_tree` builds over the nodes. -/
theorem parseCpuTree_nesting (banned : CpuMask) (only : OnlyNodes s) (nesting : Nesting s) :
    Nesting (parseCpuTree K m banned s) ∧ nodeEntries (parseCpuTree K m banned s) = m.nodes K := by
  have start : Nesting (s.setBans banned) :=
    ⟨⟨nesting.child, nesting.parent, nesting.top⟩, nesting.recorded, nesting.allocated⟩
  have shaped := setBans_shaped only banned
  obtain ⟨grown, extended⟩ : Nesting (forEach m.cpuDirs (doOneCpu K m) (s.setBans banned)) ∧
      Extended (s.setBans banned) (forEach m.cpuDirs (doOneCpu K m) (s.setBans banned)) := by
    refine forEach_preserves (I := fun s' => Nesting s' ∧ Extended (s.setBans banned) s')
      ⟨start, (Linked.refl shaped).extended⟩ fun d known s' both => ?_
    obtain ⟨nesting', extended⟩ := both
    have banning : Banning s' := extended.banning rfl
    have same : nodeEntries s' = m.nodes K := (extended.entries shaped).trans entries
    exact ⟨doOneCpu_nesting numa same known nesting' extended.shaped banning,
      extended.trans (doOneCpu_extended m d extended.shaped banning)⟩
  have same := extended.entries shaped
  change Nesting (
    let s₁ := forEach m.cpuDirs (doOneCpu K m) (s.setBans banned)
    forEach s₁.packages (connectCpuMemTopo 3) s₁) ∧ nodeEntries (
    let s₁ := forEach m.cpuDirs (doOneCpu K m) (s.setBans banned)
    forEach s₁.packages (connectCpuMemTopo 3) s₁) = _
  generalize forEach m.cpuDirs (doOneCpu K m) (s.setBans banned) = s₁ at grown extended same ⊢
  obtain ⟨connected, linked⟩ : Nesting (forEach s₁.packages (connectCpuMemTopo 3) s₁) ∧
      Linked s₁ (forEach s₁.packages (connectCpuMemTopo 3) s₁) := by
    refine forEach_preserves (I := fun s' => Nesting s' ∧ Linked s₁ s') ⟨grown, .refl extended.shaped⟩
      fun p member s' both => ?_
    have allocated : p < s'.nextObj := by
      rw [both.2.nextObj]
      exact (extended.shaped.packages p member).1
    exact ⟨connectCpuMemTopo_nesting 3 both.1 both.2.shaped allocated,
      both.2.trans (connectCpuMemTopo_linked 3 both.2.shaped allocated)⟩
  exact ⟨connected, (linked.extended.entries extended.shaped).trans (same.trans entries)⟩

omit numa entries in
theorem Bare.nesting (bare : Bare s) : Nesting s where
  child p c member := by
    rw [bare.children] at member
    contradiction
  parent c p link := by
    rw [bare.parent] at link
    contradiction
  top o _ := bare.parent o
  recorded o n member := by
    rw [bare.nodes] at member
    contradiction
  allocated c p link := by
    rw [bare.parent] at link
    contradiction

end Building

end Irqbalance
