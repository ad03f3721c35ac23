import Irqbalance.Model.CpuTree
import Irqbalance.Proofs.Frame

/-! # The shape of the topology while it is built

`Shaped` says what is true of the heap of objects throughout `build_numa_node_list` and
`parse_cpu_tree`: types are nested as nodes, packages, cache domains and CPUs, every mask but a
node's avoids the banned CPUs, and nothing is interrupted, asleep or dangling.
-/

namespace Irqbalance

variable {K : Env}

/-- What an object may be attached to. -/
def ObjType.nests : ObjType → ObjType → Prop
  | .node, .package | .node, .cache | .package, .cache | .cache, .cpu => True
  | _, _ => False

/-- Every object of the growing topology, allocated or not. -/
structure ShapedObj (s : State) (o : ObjRef) (obj : TopoObj) : Prop where
  interrupts : obj.interrupts = []
  awake : obj.powersaveMode = false
  usable : obj.objType ≠ .node → obj.mask &&& s.bannedCpus = CPU_MASK_NONE
  children : ∀ c ∈ obj.children, c < s.nextObj ∧ obj.objType.nests (s.objs c).objType
  numaNodes : ∀ n ∈ obj.numaNodes, n ∈ s.numaNodes
  attached : obj.numaNodes ≠ [] → obj.objType = .package ∨ obj.objType = .cache
  fresh : s.nextObj ≤ o → obj = {}

/-- The lists hold allocated objects of their type. -/
structure Shaped (s : State) : Prop where
  obj : ∀ o, ShapedObj s o (s.objs o)
  numaNodes : ∀ o ∈ s.numaNodes, o < s.nextObj ∧ (s.objs o).objType = .node
  packages : ∀ o ∈ s.packages, o < s.nextObj ∧ (s.objs o).objType = .package
  cacheDomains : ∀ o ∈ s.cacheDomains, o < s.nextObj ∧ (s.objs o).objType = .cache
  cpus : ∀ o ∈ s.cpus, o < s.nextObj ∧ (s.objs o).objType = .cpu

section Linking

variable {s s' s'' : State} {o child : ObjRef} {obj : TopoObj}

/-- Objects are linked to each other; none is created or loses its type, number or mask. -/
structure Linked (s s' : State) : Prop where
  shaped : Shaped s'
  kernel : SameKernel s s'
  bannedCpus : s'.bannedCpus = s.bannedCpus
  unbannedCpus : s'.unbannedCpus = s.unbannedCpus
  objType : ∀ o, (s'.objs o).objType = (s.objs o).objType
  number : ∀ o, (s'.objs o).number = (s.objs o).number
  mask : ∀ o, (s'.objs o).mask = (s.objs o).mask
  nextObj : s'.nextObj = s.nextObj
  numaNodes : s'.numaNodes = s.numaNodes
  packages : s'.packages = s.packages
  cacheDomains : s'.cacheDomains = s.cacheDomains
  cpus : s'.cpus = s.cpus

theorem Linked.refl (shaped : Shaped s) : Linked s s :=
  ⟨shaped, .refl s, rfl, rfl, fun _ => rfl, fun _ => rfl, fun _ => rfl, rfl, rfl, rfl, rfl, rfl⟩

theorem Linked.trans (first : Linked s s') (second : Linked s' s'') : Linked s s'' where
  shaped := second.shaped
  kernel := first.kernel.trans second.kernel
  bannedCpus := second.bannedCpus.trans first.bannedCpus
  unbannedCpus := second.unbannedCpus.trans first.unbannedCpus
  objType o := (second.objType o).trans (first.objType o)
  number o := (second.number o).trans (first.number o)
  mask o := (second.mask o).trans (first.mask o)
  nextObj := second.nextObj.trans first.nextObj
  numaNodes := second.numaNodes.trans first.numaNodes
  packages := second.packages.trans first.packages
  cacheDomains := second.cacheDomains.trans first.cacheDomains
  cpus := second.cpus.trans first.cpus

/-- Storing back an object that has kept its type, its number and its mask. -/
theorem Linked.setObj (shaped : Shaped s) (objType : obj.objType = (s.objs o).objType)
    (number : obj.number = (s.objs o).number) (mask : obj.mask = (s.objs o).mask)
    (shapedObj : ShapedObj s o obj) : Linked s (s.setObj o obj) where
  shaped := {
    obj := fun o' => by
      have own := forall_setObj (P := ShapedObj s) shapedObj (fun d _ => shaped.obj d) o'
      exact { own with
        children := fun c member => ⟨(own.children c member).1, by
          rw [setObj_field TopoObj.objType objType c]
          exact (own.children c member).2⟩ }
    numaNodes := fun o' member => by
      rw [setObj_field TopoObj.objType objType]
      exact shaped.numaNodes o' member
    packages := fun o' member => by
      rw [setObj_field TopoObj.objType objType]
      exact shaped.packages o' member
    cacheDomains := fun o' member => by
      rw [setObj_field TopoObj.objType objType]
      exact shaped.cacheDomains o' member
    cpus := fun o' member => by
      rw [setObj_field TopoObj.objType objType]
      exact shaped.cpus o' member }
  kernel := ⟨rfl, rfl, rfl⟩
  bannedCpus := rfl
  unbannedCpus := rfl
  objType := setObj_field TopoObj.objType objType
  number := setObj_field TopoObj.number number
  mask := setObj_field TopoObj.mask mask
  nextObj := rfl
  numaNodes := rfl
  packages := rfl
  cacheDomains := rfl
  cpus := rfl

theorem Shaped.addChild {c : ObjRef} (shaped : Shaped s) (allocated : o < s.nextObj) (known : c < s.nextObj)
    (nests : (s.objs o).objType.nests (s.objs c).objType) : Linked s (s.addChild o c) := by
  have before := shaped.obj o
  refine .setObj shaped rfl rfl rfl { before with
    children := fun c member => ?_
    fresh := fun unallocated => absurd unallocated (not_le.mpr allocated) }
  rcases List.mem_append.mp member with old | new
  · exact before.children c old
  · obtain rfl := List.mem_singleton.mp new
    exact ⟨known, nests⟩

theorem Shaped.setParent (shaped : Shaped s) (allocated : o < s.nextObj) (parent : Option ObjRef) :
    Linked s (s.setObj o { s.objs o with parent := parent }) := by
  have before := shaped.obj o
  exact .setObj shaped rfl rfl rfl { before with
    fresh := fun unallocated => absurd unallocated (not_le.mpr allocated) }

theorem Shaped.addNode (shaped : Shaped s) (allocated : o < s.nextObj) {node : ObjRef}
    (known : node ∈ s.numaNodes)
    (attachable : (s.objs o).objType = .package ∨ (s.objs o).objType = .cache) :
    Linked s (s.setObj o { s.objs o with numaNodes := (s.objs o).numaNodes ++ [node] }) := by
  have before := shaped.obj o
  exact .setObj shaped rfl rfl rfl { before with
    numaNodes := fun n member => by
      rcases List.mem_append.mp member with old | new
      · exact before.numaNodes n old
      · exact List.mem_singleton.mp new ▸ known
    attached := fun _ => attachable
    fresh := fun unallocated => absurd unallocated (not_le.mpr allocated) }

theorem adoptChild_linked (shaped : Shaped s) (allocated : o < s.nextObj) (known : child < s.nextObj)
    (nests : (s.objs o).objType.nests (s.objs child).objType) : Linked s (adoptChild o child s) := by
  unfold adoptChild
  split
  · exact .refl shaped
  · have linked := shaped.addChild allocated known nests
    exact linked.trans (linked.shaped.setParent known (some o))

theorem addNumaNodeToTopoObj_linked (shaped : Shaped s) (allocated : o < s.nextObj) (nodeid : ℤ)
    (attachable : (s.objs o).objType = .package ∨ (s.objs o).objType = .cache) :
    Linked s (addNumaNodeToTopoObj K o nodeid s) := by
  unfold addNumaNodeToTopoObj
  cases found : getNumaNode K nodeid s with
  | none => exact .refl shaped
  | some node =>
    have known : node ∈ s.numaNodes := List.mem_of_find?_eq_some found
    dsimp only
    split
    · exact .refl shaped
    obtain ⟨s₁, recorded⟩ : ∃ s₁, s₁ = if node ∈ (s.objs o).numaNodes then s
      else s.setObj o { s.objs o with numaNodes := (s.objs o).numaNodes ++ [node] } := ⟨_, rfl⟩
    have linked : Linked s s₁ := by
      rw [recorded]
      split
      · exact .refl shaped
      · exact shaped.addNode allocated known attachable
    rw [← recorded]
    split
    · rename_i package
      split
      · exact linked
      · have package : (s₁.objs o).objType = .package := by
          simp only [Bool.and_eq_true, beq_iff_eq] at package
          exact package.2
        have nodeType : (s₁.objs node).objType = .node := by
          rw [linked.objType]
          exact (shaped.numaNodes node known).2
        have added := linked.shaped.addChild (o := node) (c := o)
          (by rw [linked.nextObj]; exact (shaped.numaNodes node known).1)
          (by rw [linked.nextObj]; exact allocated) (by rw [nodeType, package]; trivial)
        refine linked.trans (added.trans (added.shaped.setParent ?_ (some node)))
        rw [added.nextObj, linked.nextObj]
        exact allocated
    · exact linked

theorem recordNode_linked (shaped : Shaped s) (allocated : o < s.nextObj) (nodeid : ℤ)
    (attachable : (s.objs o).objType = .package ∨ (s.objs o).objType = .cache) :
    Linked s (recordNode K o nodeid s) := by
  unfold recordNode
  split
  · exact addNumaNodeToTopoObj_linked shaped allocated nodeid attachable
  · exact .refl shaped

end Linking

section Creation

variable {s s' s'' : State} {obj : TopoObj}

/-- A new object, before anything is linked to it. -/
structure NewObj (s : State) (obj : TopoObj) : Prop where
  interrupts : obj.interrupts = []
  awake : obj.powersaveMode = false
  usable : obj.objType ≠ .node → obj.mask &&& s.bannedCpus = CPU_MASK_NONE
  children : obj.children = []
  numaNodes : obj.numaNodes = []

/-- A new object is allocated and may join the lists of its type. -/
structure Created (s s' : State) (obj : TopoObj) : Prop where
  objs : s'.objs = Function.update s.objs s.nextObj obj
  nextObj : s'.nextObj = s.nextObj + 1
  bannedCpus : s'.bannedCpus = s.bannedCpus
  unbannedCpus : s'.unbannedCpus = s.unbannedCpus
  known : ∀ n ∈ s.numaNodes, n ∈ s'.numaNodes
  numaNodes : ∀ o ∈ s'.numaNodes, o ∈ s.numaNodes ∨ o = s.nextObj ∧ obj.objType = .node
  packages : ∀ o ∈ s'.packages, o ∈ s.packages ∨ o = s.nextObj ∧ obj.objType = .package
  cacheDomains : ∀ o ∈ s'.cacheDomains, o ∈ s.cacheDomains ∨ o = s.nextObj ∧ obj.objType = .cache
  cpus : ∀ o ∈ s'.cpus, o ∈ s.cpus ∨ o = s.nextObj ∧ obj.objType = .cpu

theorem Created.old (created : Created s s' obj) {o : ObjRef} (allocated : o < s.nextObj) :
    s'.objs o = s.objs o := by
  rw [created.objs, Function.update_of_ne allocated.ne]

theorem Created.new (created : Created s s' obj) : s'.objs s.nextObj = obj := by
  rw [created.objs, Function.update_self]

theorem Shaped.created (shaped : Shaped s) (new : NewObj s obj) (created : Created s s' obj) :
    Shaped s' := by
  have typed {type : ObjType} {list : List ObjRef} {o : ObjRef}
      (before : ∀ o ∈ list, o < s.nextObj ∧ (s.objs o).objType = type)
      (member : o ∈ list ∨ o = s.nextObj ∧ obj.objType = type) :
      o < s'.nextObj ∧ (s'.objs o).objType = type := by
    rw [created.nextObj]
    rcases member with old | ⟨rfl, objType⟩
    · obtain ⟨allocated, objType⟩ := before o old
      exact ⟨Nat.lt_succ_of_lt allocated, by rw [created.old allocated]; exact objType⟩
    · exact ⟨Nat.lt_succ_self _, by rw [created.new]; exact objType⟩
  exact {
    obj := fun o => by
      by_cases same : o = s.nextObj
      · subst same
        rw [created.new]
        exact {
          interrupts := new.interrupts
          awake := new.awake
          usable := by rw [created.bannedCpus]; exact new.usable
          children := fun c member => by rw [new.children] at member; contradiction
          numaNodes := fun n member => by rw [new.numaNodes] at member; contradiction
          attached := fun nonempty => absurd new.numaNodes nonempty
          fresh := fun unallocated => absurd unallocated
            (by rw [created.nextObj]; exact Nat.not_succ_le_self _) }
      · have before := shaped.obj o
        rw [created.objs, Function.update_of_ne same]
        exact {
          interrupts := before.interrupts
          awake := before.awake
          usable := by rw [created.bannedCpus]; exact before.usable
          children := fun c member => by
            obtain ⟨allocated, nests⟩ := before.children c member
            rw [created.nextObj, created.old allocated]
            exact ⟨Nat.lt_succ_of_lt allocated, nests⟩
          numaNodes := fun n member => created.known n (before.numaNodes n member)
          attached := before.attached
          fresh := fun unallocated => before.fresh (by
            rw [created.nextObj] at unallocated
            exact Nat.le_of_succ_le unallocated) }
    numaNodes := fun o member => typed shaped.numaNodes (created.numaNodes o member)
    packages := fun o member => typed shaped.packages (created.packages o member)
    cacheDomains := fun o member => typed shaped.cacheDomains (created.cacheDomains o member)
    cpus := fun o member => typed shaped.cpus (created.cpus o member) }

/-- Objects are created and linked; those that were there keep type, number and mask. -/
structure Extended (s s' : State) : Prop where
  shaped : Shaped s'
  kernel : SameKernel s s'
  bannedCpus : s'.bannedCpus = s.bannedCpus
  unbannedCpus : s'.unbannedCpus = s.unbannedCpus
  nextObj : s.nextObj ≤ s'.nextObj
  objType : ∀ o < s.nextObj, (s'.objs o).objType = (s.objs o).objType
  number : ∀ o < s.nextObj, (s'.objs o).number = (s.objs o).number
  mask : ∀ o < s.nextObj, (s'.objs o).mask = (s.objs o).mask
  numaNodes : s'.numaNodes = s.numaNodes
  packages : ∀ o ∈ s.packages, o ∈ s'.packages
  cacheDomains : ∀ o ∈ s.cacheDomains, o ∈ s'.cacheDomains

theorem Linked.extended (linked : Linked s s') : Extended s s' where
  shaped := linked.shaped
  kernel := linked.kernel
  bannedCpus := linked.bannedCpus
  unbannedCpus := linked.unbannedCpus
  nextObj := linked.nextObj.ge
  objType o _ := linked.objType o
  number o _ := linked.number o
  mask o _ := linked.mask o
  numaNodes := linked.numaNodes
  packages o member := by rw [linked.packages]; exact member
  cacheDomains o member := by rw [linked.cacheDomains]; exact member

theorem Extended.trans (first : Extended s s') (second : Extended s' s'') : Extended s s'' where
  shaped := second.shaped
  kernel := first.kernel.trans second.kernel
  bannedCpus := second.bannedCpus.trans first.bannedCpus
  unbannedCpus := second.unbannedCpus.trans first.unbannedCpus
  nextObj := first.nextObj.trans second.nextObj
  objType o allocated :=
    (second.objType o (allocated.trans_le first.nextObj)).trans (first.objType o allocated)
  number o allocated :=
    (second.number o (allocated.trans_le first.nextObj)).trans (first.number o allocated)
  mask o allocated :=
    (second.mask o (allocated.trans_le first.nextObj)).trans (first.mask o allocated)
  numaNodes := second.numaNodes.trans first.numaNodes
  packages o member := second.packages o (first.packages o member)
  cacheDomains o member := second.cacheDomains o (first.cacheDomains o member)

theorem Created.extended (created : Created s s' obj) (shaped : Shaped s) (new : NewObj s obj)
    (kernel : SameKernel s s') (numaNodes : s'.numaNodes = s.numaNodes)
    (packages : ∀ o ∈ s.packages, o ∈ s'.packages)
    (cacheDomains : ∀ o ∈ s.cacheDomains, o ∈ s'.cacheDomains) : Extended s s' where
  shaped := shaped.created new created
  kernel := kernel
  bannedCpus := created.bannedCpus
  unbannedCpus := created.unbannedCpus
  nextObj := by rw [created.nextObj]; exact Nat.le_succ _
  objType o allocated := by rw [created.old allocated]
  number o allocated := by rw [created.old allocated]
  mask o allocated := by rw [created.old allocated]
  numaNodes := numaNodes
  packages := packages
  cacheDomains := cacheDomains

private theorem mem_append_new {list : List ObjRef} {new : ObjRef} {P : Prop} (holds : P) :
    ∀ o ∈ list ++ [new], o ∈ list ∨ o = new ∧ P := by
  intro o member
  exact (List.mem_append.mp member).imp_right fun last => ⟨List.mem_singleton.mp last, holds⟩

/-- The package is found or created. -/
theorem findPackage_cases (packageid : ℤ) (mask : CpuMask) :
    ((findPackage packageid mask s).2 = s ∧ (findPackage packageid mask s).1 ∈ s.packages ∧
      (s.objs (findPackage packageid mask s).1).mask = mask) ∨
    ((∀ o ∈ s.packages, (s.objs o).mask ≠ mask) ∧ (findPackage packageid mask s).1 = s.nextObj ∧
      (findPackage packageid mask s).2.packages = s.packages ++ [s.nextObj] ∧
        Created s (findPackage packageid mask s).2
          { objType := .package, number := packageid, mask := mask }) := by
  unfold findPackage
  split
  · rename_i o found
    exact .inl ⟨rfl, List.mem_of_find?_eq_some found, by simpa using List.find?_some found⟩
  · rename_i absent
    refine .inr ⟨by simpa using absent, rfl, rfl, ?_⟩
    exact ⟨rfl, rfl, rfl, rfl, fun _ => id, fun _ => .inl, mem_append_new rfl, fun _ => .inl,
      fun _ => .inl⟩

/-- The cache domain is found or created. -/
theorem findCacheDomain_cases (mask : CpuMask) :
    ((findCacheDomain mask s).2 = s ∧ (findCacheDomain mask s).1 ∈ s.cacheDomains ∧
      (s.objs (findCacheDomain mask s).1).mask = mask) ∨
    ((∀ o ∈ s.cacheDomains, (s.objs o).mask ≠ mask) ∧ (findCacheDomain mask s).1 = s.nextObj ∧
      (findCacheDomain mask s).2.cacheDomains = s.cacheDomains ++ [s.nextObj] ∧
        Created s (findCacheDomain mask s).2
          { objType := .cache, number := s.cacheDomainCount, mask := mask }) := by
  unfold findCacheDomain
  split
  · rename_i o found
    exact .inl ⟨rfl, List.mem_of_find?_eq_some found, by simpa using List.find?_some found⟩
  · rename_i absent
    refine .inr ⟨by simpa using absent, rfl, rfl, ?_⟩
    exact ⟨rfl, rfl, rfl, rfl, fun _ => id, fun _ => .inl, fun _ => .inl, mem_append_new rfl,
      fun _ => .inl⟩

theorem findPackage_frame (packageid : ℤ) (mask : CpuMask) :
    SameKernel s (findPackage packageid mask s).2 ∧
      (findPackage packageid mask s).2.numaNodes = s.numaNodes ∧
      (findPackage packageid mask s).2.cacheDomains = s.cacheDomains ∧
      (findPackage packageid mask s).2.cpus = s.cpus := by
  unfold findPackage
  split <;> exact ⟨⟨rfl, rfl, rfl⟩, rfl, rfl, rfl⟩

theorem findCacheDomain_frame (mask : CpuMask) :
    SameKernel s (findCacheDomain mask s).2 ∧
      (findCacheDomain mask s).2.numaNodes = s.numaNodes ∧
      (findCacheDomain mask s).2.packages = s.packages ∧
      (findCacheDomain mask s).2.cpus = s.cpus := by
  unfold findCacheDomain
  split <;> exact ⟨⟨rfl, rfl, rfl⟩, rfl, rfl, rfl⟩

theorem findPackage_extended (shaped : Shaped s) (packageid : ℤ) {mask : CpuMask}
    (usable : mask &&& s.bannedCpus = CPU_MASK_NONE) :
    Extended s (findPackage packageid mask s).2 ∧
      (findPackage packageid mask s).1 ∈ (findPackage packageid mask s).2.packages := by
  have frame := findPackage_frame (s := s) packageid mask
  rcases findPackage_cases (s := s) packageid mask with
    ⟨same, member, _⟩ | ⟨_, fresh, packages, created⟩
  · rw [same]
    exact ⟨(Linked.refl shaped).extended, member⟩
  · refine ⟨created.extended shaped ⟨rfl, rfl, fun _ => usable, rfl, rfl⟩ frame.1 frame.2.1 ?_ ?_, ?_⟩
    · intro o member
      rw [packages]
      exact List.mem_append_left _ member
    · rw [frame.2.2.1]
      exact fun _ => id
    · rw [fresh, packages]
      exact List.mem_append_right _ (List.mem_singleton_self _)

theorem findCacheDomain_extended (shaped : Shaped s) {mask : CpuMask}
    (usable : mask &&& s.bannedCpus = CPU_MASK_NONE) :
    Extended s (findCacheDomain mask s).2 ∧
      (findCacheDomain mask s).1 ∈ (findCacheDomain mask s).2.cacheDomains := by
  have frame := findCacheDomain_frame (s := s) mask
  rcases findCacheDomain_cases (s := s) mask with ⟨same, member, _⟩ | ⟨_, fresh, caches, created⟩
  · rw [same]
    exact ⟨(Linked.refl shaped).extended, member⟩
  · refine ⟨created.extended shaped ⟨rfl, rfl, fun _ => usable, rfl, rfl⟩ frame.1 frame.2.1 ?_ ?_, ?_⟩
    · rw [frame.2.2.1]
      exact fun _ => id
    · intro o member
      rw [caches]
      exact List.mem_append_left _ member
    · rw [fresh, caches]
      exact List.mem_append_right _ (List.mem_singleton_self _)

end Creation

section Parsing

variable {s s' : State}

/-- The online map, the list of CPUs and the cache counter play no part in the shape. -/
theorem Shaped.congr (shaped : Shaped s) (objs : s'.objs = s.objs) (nextObj : s'.nextObj = s.nextObj)
    (numaNodes : s'.numaNodes = s.numaNodes) (packages : s'.packages = s.packages)
    (cacheDomains : s'.cacheDomains = s.cacheDomains) (bannedCpus : s'.bannedCpus = s.bannedCpus)
    (cpus : ∀ o ∈ s'.cpus, o < s.nextObj ∧ (s.objs o).objType = .cpu) : Shaped s' where
  obj o := by
    have before := shaped.obj o
    rw [objs]
    exact {
      interrupts := before.interrupts
      awake := before.awake
      usable := by rw [bannedCpus]; exact before.usable
      children := by rw [nextObj, objs]; exact before.children
      numaNodes := by rw [numaNodes]; exact before.numaNodes
      attached := before.attached
      fresh := by rw [nextObj]; exact before.fresh }
  numaNodes := by rw [numaNodes, nextObj, objs]; exact shaped.numaNodes
  packages := by rw [packages, nextObj, objs]; exact shaped.packages
  cacheDomains := by rw [cacheDomains, nextObj, objs]; exact shaped.cacheDomains
  cpus := by rw [nextObj, objs]; exact cpus

theorem addCacheDomainToPackage_extended (shaped : Shaped s) {cache : ObjRef} (packageid nodeid : ℤ)
    {packageMask : CpuMask} (known : cache ∈ s.cacheDomains)
    (usable : packageMask &&& s.bannedCpus = CPU_MASK_NONE) :
    Extended s (addCacheDomainToPackage K cache packageid packageMask nodeid s) := by
  obtain ⟨found, member⟩ := findPackage_extended shaped packageid usable
  unfold addCacheDomainToPackage
  generalize findPackage packageid packageMask s = result at found member ⊢
  obtain ⟨package, s₁⟩ := result
  obtain ⟨allocated, packageType⟩ := found.shaped.packages package member
  obtain ⟨allocatedCache, cacheType⟩ := found.shaped.cacheDomains cache (found.cacheDomains cache known)
  have adopted := adoptChild_linked found.shaped allocated allocatedCache
    (by rw [packageType, cacheType]; trivial)
  have recorded := recordNode_linked (K := K) (o := package) adopted.shaped
    (by rw [adopted.nextObj]; exact allocated) nodeid (by rw [adopted.objType]; exact .inl packageType)
  exact found.trans (adopted.trans recorded).extended

theorem addCpuToCacheDomain_extended (shaped : Shaped s) {cpu : ObjRef} (nodeid : ℤ)
    {cacheMask : CpuMask} (allocatedCpu : cpu < s.nextObj) (cpuType : (s.objs cpu).objType = .cpu)
    (usable : cacheMask &&& s.bannedCpus = CPU_MASK_NONE) :
    Extended s (addCpuToCacheDomain K cpu cacheMask nodeid s).2 ∧
      (addCpuToCacheDomain K cpu cacheMask nodeid s).1 ∈
        (addCpuToCacheDomain K cpu cacheMask nodeid s).2.cacheDomains := by
  obtain ⟨found, member⟩ := findCacheDomain_extended shaped usable
  unfold addCpuToCacheDomain
  generalize findCacheDomain cacheMask s = result at found member ⊢
  obtain ⟨cache, s₁⟩ := result
  obtain ⟨allocated, cacheType⟩ := found.shaped.cacheDomains cache member
  have adopted := adoptChild_linked found.shaped allocated (allocatedCpu.trans_le found.nextObj)
    (by rw [cacheType, found.objType cpu allocatedCpu, cpuType]; trivial)
  have recorded := recordNode_linked (K := K) (o := cache) adopted.shaped
    (by rw [adopted.nextObj]; exact allocated) nodeid (by rw [adopted.objType]; exact .inr cacheType)
  have linked := adopted.trans recorded
  refine ⟨found.trans linked.extended, ?_⟩
  dsimp only
  rw [linked.cacheDomains]
  exact member

/-- The two ban masks as `setup_banned_cpus` leaves them. -/
def Banning (s : State) : Prop := s.unbannedCpus = ~~~s.bannedCpus

theorem Banning.and_unbanned (banning : Banning s) (mask : CpuMask) :
    mask &&& s.unbannedCpus &&& s.bannedCpus = CPU_MASK_NONE := by
  unfold Banning at banning
  rw [banning, BitVec.and_assoc]
  have disjoint : ~~~s.bannedCpus &&& s.bannedCpus = CPU_MASK_NONE := by
    ext i
    simp
  rw [disjoint, BitVec.and_zero]

theorem Extended.banning (extended : Extended s s') (banning : Banning s) : Banning s' := by
  unfold Banning
  rw [extended.unbannedCpus, extended.bannedCpus]
  exact banning

/-- The state in which `do_one_cpu` has marked the CPU as online. -/
def State.setOnline (s : State) (d : CpuDir) : State :=
  { s with cpuOnlineMap := s.cpuOnlineMap ||| cpumaskOfCpu d.number }

/-- The object that `do_one_cpu` creates. -/
def CpuDir.obj (d : CpuDir) : TopoObj :=
  { objType := .cpu, number := d.number, mask := cpumaskOfCpu d.number }

theorem setOnline_extended (d : CpuDir) (shaped : Shaped s) : Extended s (s.setOnline d) where
  shaped := shaped.congr rfl rfl rfl rfl rfl rfl shaped.cpus
  kernel := ⟨rfl, rfl, rfl⟩
  bannedCpus := rfl
  unbannedCpus := rfl
  nextObj := le_rfl
  objType _ _ := rfl
  number _ _ := rfl
  mask _ _ := rfl
  numaNodes := rfl
  packages _ := id
  cacheDomains _ := id

/-- Append to `cpus`. -/
def State.enlist (s : State) (cpu : ObjRef) : State := { s with cpus := s.cpus ++ [cpu] }

/-- The filtered mask under which the CPU's cache domain is looked up. -/
def CpuDir.usableCache (K : Env) (d : CpuDir) (s : State) : CpuMask :=
  d.cacheMask K.deepestCache &&& s.unbannedCpus

/-- The filtered mask under which the CPU's package is looked up. -/
def CpuDir.usablePackage (K : Env) (d : CpuDir) (s : State) : CpuMask :=
  d.packageMask K s &&& s.unbannedCpus

/-- `do_one_cpu` creates objects for online CPUs that are not banned. -/
def CpuDir.usable (d : CpuDir) (m : Machine) (banned : CpuMask) : Bool :=
  cpuIsset d.number m.online && !cpusIntersects (cpumaskOfCpu d.number) banned

/-- The state in which `do_one_cpu` has found the cache domain of a new CPU. -/
def cacheStep (K : Env) (d : CpuDir) (s : State) : ObjRef × State :=
  addCpuToCacheDomain K s.nextObj (d.usableCache K s) (d.nodeid K)
    ((s.setOnline d).allocObj d.obj).2

theorem doOneCpu_usable (m : Machine) (d : CpuDir) (usable : d.usable m s.bannedCpus = true) :
    doOneCpu K m d s = (addCacheDomainToPackage K (cacheStep K d s).1
      (d.physicalPackageId.getD 0) (d.usablePackage K s) (d.nodeid K)
        (cacheStep K d s).2).enlist s.nextObj := by
  obtain ⟨online, allowed⟩ := Bool.and_eq_true_iff.mp usable
  simp only [doOneCpu, online, Bool.not_true, Bool.false_eq_true, if_false]
  rw [if_neg (by simpa using allowed)]
  rfl

theorem doOneCpu_unusable (m : Machine) (d : CpuDir) (unusable : d.usable m s.bannedCpus = false) :
    doOneCpu K m d s = s ∨ doOneCpu K m d s = s.setOnline d := by
  unfold doOneCpu
  cases online : cpuIsset d.number m.online with
  | false => exact .inl rfl
  | true =>
    have banned : cpusIntersects (cpumaskOfCpu d.number) s.bannedCpus = true := by
      simpa [CpuDir.usable, online] using unusable
    simp only [Bool.not_true, Bool.false_eq_true, if_false]
    rw [if_pos banned]
    exact .inr rfl

theorem setOnline_created (d : CpuDir) : Created s ((s.setOnline d).allocObj d.obj).2 d.obj :=
  ⟨rfl, rfl, rfl, rfl, fun _ => id, fun _ => .inl, fun _ => .inl, fun _ => .inl, fun _ => .inl⟩

/-- The new CPU. -/
theorem allocCpu_extended (m : Machine) (d : CpuDir) (shaped : Shaped s)
    (usable : d.usable m s.bannedCpus = true) : Extended s ((s.setOnline d).allocObj d.obj).2 := by
  have allowed : cpumaskOfCpu d.number &&& s.bannedCpus = CPU_MASK_NONE := by
    simpa [cpusIntersects] using (Bool.and_eq_true_iff.mp usable).2
  exact (setOnline_created d).extended shaped ⟨rfl, rfl, fun _ => allowed, rfl, rfl⟩ ⟨rfl, rfl, rfl⟩ rfl
    (fun _ => id) fun _ => id

/-- The new CPU and its cache domain. -/
theorem cacheStep_extended (m : Machine) (d : CpuDir) (shaped : Shaped s) (banning : Banning s)
    (usable : d.usable m s.bannedCpus = true) :
    Extended s (cacheStep K d s).2 ∧ (cacheStep K d s).1 ∈ (cacheStep K d s).2.cacheDomains ∧
      s.nextObj < (cacheStep K d s).2.nextObj ∧
        ((cacheStep K d s).2.objs s.nextObj).objType = .cpu := by
  have created := setOnline_created (s := s) d
  have allocated := allocCpu_extended m d shaped usable
  have cpuType : (((s.setOnline d).allocObj d.obj).2.objs s.nextObj).objType = .cpu :=
    congrArg TopoObj.objType created.new
  have fresh : s.nextObj < ((s.setOnline d).allocObj d.obj).2.nextObj := Nat.lt_succ_self _
  obtain ⟨cached, member⟩ := addCpuToCacheDomain_extended (K := K) allocated.shaped (d.nodeid K)
    fresh cpuType (banning.and_unbanned (d.cacheMask K.deepestCache))
  exact ⟨allocated.trans cached, member, fresh.trans_le cached.nextObj,
    (cached.objType _ fresh).trans cpuType⟩

theorem Extended.enlist {cpu : ObjRef} (extended : Extended s s') (allocated : cpu < s'.nextObj)
    (cpuType : (s'.objs cpu).objType = .cpu) : Extended s (s'.enlist cpu) where
  shaped := extended.shaped.congr rfl rfl rfl rfl rfl rfl fun o memberO => by
    rcases List.mem_append.mp memberO with old | new
    · exact extended.shaped.cpus o old
    · exact List.mem_singleton.mp new ▸ ⟨allocated, cpuType⟩
  kernel := extended.kernel.trans ⟨rfl, rfl, rfl⟩
  bannedCpus := extended.bannedCpus
  unbannedCpus := extended.unbannedCpus
  nextObj := extended.nextObj
  objType := extended.objType
  number := extended.number
  mask := extended.mask
  numaNodes := extended.numaNodes
  packages := extended.packages
  cacheDomains := extended.cacheDomains

theorem doOneCpu_extended (m : Machine) (d : CpuDir) (shaped : Shaped s) (banning : Banning s) :
    Extended s (doOneCpu K m d s) := by
  cases usable : d.usable m s.bannedCpus with
  | false =>
    rcases doOneCpu_unusable (K := K) m d usable with same | online
    · rw [same]
      exact (Linked.refl shaped).extended
    · rw [online]
      exact setOnline_extended d shaped
  | true =>
    rw [doOneCpu_usable m d usable]
    obtain ⟨cached, member, allocated, cpuType⟩ := cacheStep_extended (K := K) m d shaped banning usable
    have packageUsable : d.usablePackage K s &&& (cacheStep K d s).2.bannedCpus = CPU_MASK_NONE := by
      rw [cached.bannedCpus]
      exact banning.and_unbanned (d.packageMask K s)
    have packaged := addCacheDomainToPackage_extended (K := K) cached.shaped
      (d.physicalPackageId.getD 0) (d.nodeid K) member packageUsable
    exact (cached.trans packaged).enlist (allocated.trans_le packaged.nextObj)
      ((packaged.objType _ allocated).trans cpuType)

/-- `connect_cpu_mem_topo` attaches packages and cache domains to nodes. -/
theorem connectCpuMemTopo_linked (fuel : ℕ) {p : ObjRef} (shaped : Shaped s) (allocated : p < s.nextObj) :
    Linked s (connectCpuMemTopo fuel p s) := by
  induction fuel generalizing p s with
  | zero => exact .refl shaped
  | succ fuel ih =>
    have own := shaped.obj p
    rw [connectCpuMemTopo]
    split
    · exact .refl shaped
    · rename_i node one
      have known : node ∈ s.numaNodes := own.numaNodes node (by rw [one]; exact List.mem_singleton_self _)
      have attachable := own.attached (by rw [one]; exact List.cons_ne_nil _ _)
      obtain ⟨s₁, parented⟩ : ∃ s₁, s₁ =
        if (s.objs p).objType == .package && (s.objs p).parent.isNone
          then s.setObj p { s.objs p with parent := some node } else s := ⟨_, rfl⟩
      have linked : Linked s s₁ := by
        rw [parented]
        split
        · exact shaped.setParent allocated (some node)
        · exact .refl shaped
      dsimp only
      rw [← parented]
      split
      · exact linked
      · refine linked.trans (linked.shaped.addChild ?_ ?_ ?_)
        · rw [linked.nextObj]
          exact (shaped.numaNodes node known).1
        · rw [linked.nextObj]
          exact allocated
        · rw [linked.objType, linked.objType, (shaped.numaNodes node known).2]
          rcases attachable with package | cache
          · rw [package]; trivial
          · rw [cache]; trivial
    · apply forEach_preserves (I := Linked s) (.refl shaped)
      intro c member s' linked
      exact linked.trans (ih linked.shaped (by rw [linked.nextObj]; exact (own.children c member).1))

theorem addOneNode_shaped (shaped : Shaped s) (nodeid : ℤ) (mask : CpuMask) :
    Shaped (addOneNode nodeid mask s) ∧ SameKernel s (addOneNode nodeid mask s) ∧
      (addOneNode nodeid mask s).bannedCpus = s.bannedCpus := by
  have created : Created s (addOneNode nodeid mask s)
      { objType := .node, number := nodeid, mask := mask } :=
    ⟨rfl, rfl, rfl, rfl, fun _ => List.mem_append_left _, mem_append_new rfl, fun _ => .inl,
      fun _ => .inl, fun _ => .inl⟩
  exact ⟨shaped.created ⟨rfl, rfl, fun node => absurd rfl node, rfl, rfl⟩ created, ⟨rfl, rfl, rfl⟩, rfl⟩

/-- Only nodes have been created so far, so that any CPUs can be banned. -/
structure OnlyNodes (s : State) : Prop where
  shaped : Shaped s
  nodes : ∀ o < s.nextObj, (s.objs o).objType = .node

theorem addOneNode_onlyNodes (only : OnlyNodes s) (nodeid : ℤ) (mask : CpuMask) :
    OnlyNodes (addOneNode nodeid mask s) where
  shaped := (addOneNode_shaped only.shaped nodeid mask).1
  nodes o allocated := by
    change (Function.update s.objs s.nextObj _ o).objType = .node
    by_cases same : o = s.nextObj
    · subst same; simp
    · rw [Function.update_of_ne same]
      exact only.nodes o (lt_of_le_of_ne (Nat.le_of_lt_succ allocated) same)

theorem buildNumaNodeList_onlyNodes (m : Machine) (only : OnlyNodes s) :
    OnlyNodes (buildNumaNodeList K m s) ∧ SameKernel s (buildNumaNodeList K m s) := by
  have first := addOneNode_onlyNodes only NUMA_NO_NODE (BitVec.allOnes NR_CPUS)
  have kernel := (addOneNode_shaped only.shaped NUMA_NO_NODE (BitVec.allOnes NR_CPUS)).2.1
  unfold buildNumaNodeList
  dsimp only
  split
  · apply forEach_preserves (I := fun s' => OnlyNodes s' ∧ SameKernel s s') ⟨first, kernel⟩
    intro d _ s' valid
    exact ⟨addOneNode_onlyNodes valid.1 _ _, valid.2.trans (addOneNode_shaped valid.1.shaped _ _).2.1⟩
  · exact ⟨first, kernel⟩

/-- Nothing is linked, and only the list of nodes may be filled. -/
structure Bare (s : State) : Prop where
  children : ∀ o, (s.objs o).children = []
  parent : ∀ o, (s.objs o).parent = none
  nodes : ∀ o, (s.objs o).numaNodes = []
  packages : s.packages = []
  cacheDomains : s.cacheDomains = []
  cpus : s.cpus = []

theorem addOneNode_bare (bare : Bare s) (nodeid : ℤ) (mask : CpuMask) : Bare (addOneNode nodeid mask s) := by
  have field {β : Type} (f : TopoObj → β) {value : β} (new : f { objType := .node, number := nodeid, mask := mask } = value)
      (old : ∀ o, f (s.objs o) = value) (o : ObjRef) : f ((addOneNode nodeid mask s).objs o) = value := by
    change f (Function.update s.objs s.nextObj _ o) = value
    by_cases same : o = s.nextObj
    · subst same
      rw [Function.update_self]
      exact new
    · rw [Function.update_of_ne same]
      exact old o
  exact ⟨field TopoObj.children rfl bare.children, field TopoObj.parent rfl bare.parent,
    field TopoObj.numaNodes rfl bare.nodes, bare.packages, bare.cacheDomains, bare.cpus⟩

theorem buildNumaNodeList_bare (m : Machine) (bare : Bare s) : Bare (buildNumaNodeList K m s) := by
  have first := addOneNode_bare bare NUMA_NO_NODE (BitVec.allOnes NR_CPUS)
  unfold buildNumaNodeList
  dsimp only
  split
  · exact forEach_preserves (I := Bare) first fun _ _ s' bare => addOneNode_bare bare _ _
  · exact first

/-- Setting the masks of banned and unbanned CPUs. -/
def State.setBans (s : State) (banned : CpuMask) : State :=
  { s with bannedCpus := banned, unbannedCpus := ~~~banned }

theorem setBans_shaped (only : OnlyNodes s) (banned : CpuMask) : Shaped (s.setBans banned) where
  obj o := by
    have before := only.shaped.obj o
    exact {
      interrupts := before.interrupts
      awake := before.awake
      usable := fun other => by
        rcases Nat.lt_or_ge o s.nextObj with allocated | unallocated
        · exact absurd (only.nodes o allocated) other
        · change (s.objs o).mask &&& banned = CPU_MASK_NONE
          rw [before.fresh unallocated]
          exact BitVec.zero_and
      children := before.children
      numaNodes := before.numaNodes
      attached := before.attached
      fresh := before.fresh }
  numaNodes := only.shaped.numaNodes
  packages := only.shaped.packages
  cacheDomains := only.shaped.cacheDomains
  cpus := only.shaped.cpus

theorem parseCpuTree_extended (m : Machine) (banned : CpuMask) (only : OnlyNodes s) :
    Extended (s.setBans banned) (parseCpuTree K m banned s) := by
  have shaped := setBans_shaped only banned
  have parsed : Extended (s.setBans banned) (forEach m.cpuDirs (doOneCpu K m) (s.setBans banned)) :=
    forEach_preserves (I := Extended (s.setBans banned)) (Linked.refl shaped).extended
      fun d _ s' extended => extended.trans (doOneCpu_extended m d extended.shaped
        (extended.banning rfl))
  change Extended (s.setBans banned) (
    let s₁ := forEach m.cpuDirs (doOneCpu K m) (s.setBans banned)
    forEach s₁.packages (connectCpuMemTopo 3) s₁)
  generalize forEach m.cpuDirs (doOneCpu K m) (s.setBans banned) = s₁ at parsed ⊢
  refine parsed.trans (Linked.extended ?_)
  apply forEach_preserves (I := Linked s₁) (.refl parsed.shaped)
  intro p member s' linked
  refine linked.trans (connectCpuMemTopo_linked 3 linked.shaped ?_)
  rw [linked.nextObj]
  exact (parsed.shaped.packages p member).1

theorem freeTopology_onlyNodes : OnlyNodes (freeTopology s) where
  shaped := {
    obj := fun o => ⟨rfl, rfl, fun _ => BitVec.zero_and, fun _ none => by contradiction,
      fun _ none => by contradiction, fun some => absurd rfl some, fun _ => rfl⟩
    numaNodes := fun _ none => by contradiction
    packages := fun _ none => by contradiction
    cacheDomains := fun _ none => by contradiction
    cpus := fun _ none => by contradiction }
  nodes o none := absurd none (Nat.not_lt_zero o)

theorem freeTopology_bare : Bare (freeTopology s) :=
  ⟨fun _ => rfl, fun _ => rfl, fun _ => rfl, rfl, rfl, rfl⟩

end Parsing

end Irqbalance
